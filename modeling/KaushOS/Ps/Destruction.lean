import KaushOS.Ps.ProcessInvariant

/-! # The end of processes and threads

What `PsDecProcessRundownProtect` and `PsCloseThread` do in a state that satisfies the invariant.

* **`psDecProcessRundownProtect_spec`** — a decrement that is owed returns, whatever chain of
  ancestors goes with the process.
* **`psCloseThread_spec`** — closing a thread of another process returns if its user stack can be
  freed; **`psCloseThread_guards`** — it returns only then.
* **`obDereferenceThread_spec`** — dropping the reference to a thread closes it. -/

namespace KaushOS

variable {τ : Type} {idle current t : τ} {sys p q : UInt32} {s s' : Ps τ}

/-! ## One process -/

/-- The header of an object whose only reference has been dropped. -/
def deadHeader (type : OBJECT_TYPE_INDEX) : OBJECT_HEADER :=
  { createdHeader type with RefCount := 0 }

/-- Dropping the only reference to an object. -/
theorem dereferenceHeader_created (type : OBJECT_TYPE_INDEX) :
    dereferenceHeader (createdHeader type) = .ok (deadHeader type, true) := by
  have hmagic : (createdHeader type).Magic = OBJECT_HEADER_MAGIC := rfl
  have href : (createdHeader type).RefCount ≥ 1 := Int.le_refl 1
  have hperm : (createdHeader type).Attributes &&& OBJ_PERMANENT = 0 :=
    show (0 : UInt32) &&& OBJ_PERMANENT = 0 by decide
  have hclosed : closedHeader 0 (createdHeader type) = deadHeader type := rfl
  have hcount : ¬ (deadHeader type).RefCount > 0 := Int.lt_irrefl 0
  have hzero : (deadHeader type).RefCount = 0 := rfl
  have hhandles : (deadHeader type).OpenHandleCount = 0 := rfl
  have hperm' : (deadHeader type).Attributes &&& OBJ_PERMANENT = 0 := hperm
  simp only [dereferenceHeader, assert_of_true hmagic, assert_of_true href, kernel_ok_bind,
    if_neg (not_not.mpr hperm), hclosed, if_neg hcount, assert_of_true hzero,
    assert_of_true hhandles, assert_of_true hperm']
  rfl

/-- Using a process that is allocated. -/
theorem Ps.useProcess_eq (hp : p ∈ s.processes) :
    s.useProcess p = { s with log := .use p true :: s.log } := by
  simp only [Ps.useProcess, Ps.record, hp, decide_true]

/-- What is left to do for a process that is dead, once its parent has been told: its PID, its page
directory and its memory go. -/
def buryProcess (p : UInt32) (s : Ps τ) : Kernel (Ps τ) := do
  let s ← removePid p (s.useProcess p)
  let s ← mmDeleteProcessAddressSpace p s
  let s := s.useProcess p
  return { s with processes := s.processes.erase p }.record
    (.destroy p (s.eprocess p).ActiveThreads)

/-- **Dropping the reference to a process**: the parent is told, and the process is buried. -/
theorem obDereferenceProcess_eq {dec : UInt32 → Ps τ → Kernel (Ps τ)} (hp : p ∈ s.processes)
    (hheader : (s.eprocess p).header = createdHeader .OBJECT_TYPE_PROCESS)
    (hflags : (s.eprocess p).Flags = processFlags) (hcur : (s.ethread current).ThreadsProcess ≠ p)
    (hzero : (s.eprocess p).RundownProtect = 0) {dead : Ps τ}
    (hdead : dead = { s with
      eprocess := Function.update s.eprocess p
        { s.eprocess p with header := deadHeader .OBJECT_TYPE_PROCESS }
      log := .use p true :: .use p true :: s.log }) :
    obDereferenceProcess dec current p s
      = (if (s.eprocess p).Parent ≠ NULL then dec (s.eprocess p).Parent dead else .ok dead)
        >>= buryProcess p := by
  subst hdead
  have hflag : processFlags &&& PROCESS_FLAG_CLEANUP_MASK &&& PROCESS_FLAG_ALLOCATED ≠ 0 := by
    decide
  have hmagic : (deadHeader .OBJECT_TYPE_PROCESS).Magic = OBJECT_HEADER_MAGIC := rfl
  have hclose : obDereferenceProcess dec current p s
      = pspFreeProcess dec p
          { s with
            eprocess := Function.update s.eprocess p
              { s.eprocess p with header := deadHeader .OBJECT_TYPE_PROCESS }
            log := .use p true :: s.log } >>= fun s =>
        let s := s.useProcess p
        .ok ({ s with processes := s.processes.erase p }.record
          (.destroy p (s.eprocess p).ActiveThreads)) := by
    simp only [obDereferenceProcess, Ps.useProcess_eq hp, hheader, dereferenceHeader_created,
      kernel_ok_bind, if_true, pspCloseProcess, Ps.modifyProcess, Function.update_self,
      assert_of_true hmagic, assert_of_true hcur, assert_of_true hzero]
    rfl
  rw [hclose]
  by_cases hparent : (s.eprocess p).Parent = NULL
  · simp only [pspFreeProcess, Ps.useProcess, Ps.record, hp, Function.update_self, hflags,
      if_pos hflag, hparent, ne_eq, not_true_eq_false, if_false, kernel_ok_bind, decide_true,
      buryProcess, bind_assoc]
    rfl
  · simp only [pspFreeProcess, Ps.useProcess, Ps.record, hp, Function.update_self, hflags,
      if_pos hflag, hparent, ne_eq, not_false_eq_true, if_true, decide_true, bind_assoc]
    rfl

/-- **Burying a dead process** returns when its PID is its own and its page directory has been handed
out to it. -/
theorem buryProcess_eq (hp : p ∈ s.processes)
    (hentry : s.PidTable (s.eprocess p).UniqueProcessId = .object p) {ptes : SystemPtes}
    (hfree : mmFreeSystemPtes (s.eprocess p).DirectoryTableBase 1 s.systemPtes = .ok ptes) :
    buryProcess p s = .ok { s with
      processes := s.processes.erase p
      PidTable := Function.update s.PidTable (s.eprocess p).UniqueProcessId .invalid
      userMapped := Function.update s.userMapped p fun _ => false
      systemPtes := ptes
      log := .destroy p (s.eprocess p).ActiveThreads :: .use p true :: .use p true :: s.log } := by
  simp only [buryProcess, Ps.useProcess, Ps.record, hp, decide_true, removePid,
    assert_of_true hentry, kernel_ok_bind, mmDeleteProcessAddressSpace, hfree, pure, Except.pure]

/-! ## Decrements -/

/-- What a decrement has written to the log. -/
def LogGrows (s s' : Ps τ) : Prop :=
  ∃ new, s'.log = new ++ s.log ∧ Tidy new ∧ ∀ a ∈ new, a.ofThread = false

/-- A decrement that does not get to 0 is an entry in good order. -/
theorem tidy_decrement {r : Int} (hr : r ≠ 0) :
    Tidy ([.decrement p r, .use p true] : List (PsAction τ)) where
  used q b hb := by simp at hb; exact hb.2
  destroyed q := by simp [PsAction.destroys, PsAction.zeroes, hr]
  active q n hn := by simp at hn

/-- **What the last decrement of a process writes to the log** is in good order, if what the
decrement of the parent writes is. -/
theorem Tidy.destroy {new : List (PsAction τ)} (h : Tidy new) :
    Tidy (.destroy p 0 :: .use p true :: .use p true :: (new ++ [.use p true, .use p true,
      .decrement p 0, .use p true])) where
  used q b hb := by
    simp only [List.mem_cons, List.mem_append, reduceCtorEq, false_or, PsAction.use.injEq,
      List.not_mem_nil, or_false] at hb
    rcases hb with hb | hb | hb | hb | hb | hb
    · exact hb.2
    · exact hb.2
    · exact h.used q b hb
    · exact hb.2
    · exact hb.2
    · exact hb.2
  destroyed q := by
    have hnew := h.destroyed q
    simp only [List.countP_cons, List.countP_append, PsAction.destroys, PsAction.zeroes,
      List.countP_nil, hnew, decide_eq_true_eq, Bool.false_eq_true, if_false, and_true]
    omega
  active q n hn := by
    simp only [List.mem_cons, List.mem_append, PsAction.destroy.injEq, reduceCtorEq, false_or,
      List.not_mem_nil, or_false] at hn
    rcases hn with hn | hn
    · exact hn.2
    · exact h.active q n hn

/-- A store to members of one process that keeps its shape. -/
theorem Ps.SameShape.store {e : EPROCESS τ} {log : List (PsAction τ)}
    (he : e.header = (s.eprocess p).header ∧ e.Flags = (s.eprocess p).Flags
      ∧ e.Parent = (s.eprocess p).Parent
      ∧ e.DirectoryTableBase = (s.eprocess p).DirectoryTableBase
      ∧ e.UniqueProcessId = (s.eprocess p).UniqueProcessId) :
    s.SameShape { s with eprocess := Function.update s.eprocess p e, log := log } where
  threads := rfl
  processes := rfl
  pid := rfl
  ptes := rfl
  ethread _ := ⟨rfl, rfl, rfl⟩
  eprocess q := by
    by_cases hq : q = p
    · subst hq
      simpa using he
    · simp [Function.update_of_ne hq]

/-- A descent that consists in a store to the counter of one process. -/
theorem Ps.Descends.decrement (hp : p ∈ s.alive) {r : Int} {log : List (PsAction τ)} :
    s.Descends sys { s with
      eprocess := Function.update s.eprocess p { s.eprocess p with RundownProtect := r }
      log := log } := by
  have hshape : s.SameShape { s with
      eprocess := Function.update s.eprocess p { s.eprocess p with RundownProtect := r }
      log := log } := Ps.SameShape.store ⟨rfl, rfl, rfl, rfl, rfl⟩
  refine ⟨rfl, rfl, rfl, rfl, rfl, fun _ h => h, fun _ h _ => h, ?_, ?_, ?_, ?_, fun _ _ => rfl,
    fun _ _ _ h => h, fun _ h _ => h⟩
  · intro q _ hq
    rw [hshape.alive]
    exact hq
  · intro q hq
    apply Function.update_of_ne
    rintro rfl
    exact hq hp
  · rw [hshape.alive]
  · intro q
    by_cases hq : q = p
    · subst hq
      exact ⟨r, _, Function.update_self ..⟩
    · exact ⟨_, _, Function.update_of_ne hq ..⟩

/-- The unfolded decrement. -/
theorem psDecProcessRundownProtect_succ {n : Nat} (hp : p ∈ s.processes)
    (hne : (s.eprocess p).RundownProtect ≠ 0) {next : Ps τ}
    (hnext : next = { s with
      eprocess := Function.update s.eprocess p
        { s.eprocess p with RundownProtect := (s.eprocess p).RundownProtect - 1 }
      log := .decrement p ((s.eprocess p).RundownProtect - 1) :: .use p true :: s.log }) :
    psDecProcessRundownProtect current (n + 1) p s
      = if (s.eprocess p).RundownProtect - 1 = 0 then do
          assert ((s.eprocess p).ActiveThreads = 0) "Process->ActiveThreads == 0"
          obDereferenceProcess (psDecProcessRundownProtect current n) current p next
        else .ok next := by
  subst hnext
  simp only [psDecProcessRundownProtect, Ps.useProcess_eq hp, assert_of_true hne, kernel_ok_bind,
    Ps.modifyProcess, Ps.record, Function.update_self]
  rfl

/-- **A decrement that is owed returns.** If it is the last one, the process goes, its parent is
decremented in turn, and the process is buried behind it: by induction on the number of processes
that are alive, which the dying one has left by then. -/
theorem psDecProcessRundownProtect_spec {n : Nat} (h : PsInvariant idle sys (owes p) s)
    (hp : p ∈ s.alive) (hcur : (s.openThreads (s.ethread current).ThreadsProcess).Nonempty)
    (hn : s.alive.card < n) :
    ∃ s', psDecProcessRundownProtect current n p s = .ok s' ∧ PsInvariant idle sys noDebt s'
      ∧ s.Descends sys s' ∧ LogGrows s s'
      ∧ (p ∈ s'.processes ↔ (s.eprocess p).RundownProtect ≠ 1) := by
  induction n generalizing p s with
  | zero => exact absurd hn (Nat.not_lt_zero _)
  | succ n ih =>
    have hproc := Ps.mem_processes_of_alive hp
    have hprotect := h.protect p hp
    rw [owes, if_pos rfl] at hprotect
    obtain ⟨next, hnext⟩ : ∃ next : Ps τ, next = { s with
      eprocess := Function.update s.eprocess p
        { s.eprocess p with RundownProtect := (s.eprocess p).RundownProtect - 1 }
      log := .decrement p ((s.eprocess p).RundownProtect - 1) :: .use p true :: s.log } := ⟨_, rfl⟩
    have hshape : s.SameShape next := by
      subst hnext
      exact Ps.SameShape.store ⟨rfl, rfl, rfl, rfl, rfl⟩
    have hinv : PsInvariant idle sys noDebt next := by
      apply h.of_shape hshape
      · intro q _
        subst hnext
        by_cases hq : q = p
        · subst hq
          simp [owes, noDebt]
        · simp [owes, noDebt, hq]
      · intro q _
        subst hnext
        by_cases hq : q = p
        · subst hq
          simp
        · simp [hq]
    rw [psDecProcessRundownProtect_succ hproc (by omega) hnext]
    by_cases hone : (s.eprocess p).RundownProtect = 1
    · -- nothing protects the process any more
      rw [if_pos (by omega)]
      have hopen : s.openThreads p = ∅ := Finset.card_eq_zero.mp (by omega)
      have hchildren : s.children p = ∅ := Finset.card_eq_zero.mp (by omega)
      have hsys : p ≠ sys := by
        rintro rfl
        have hidle := h.idleThread
        rw [hopen] at hidle
        exact Finset.notMem_empty _ hidle
      have hcurne : (s.ethread current).ThreadsProcess ≠ p := by
        rintro rfl
        rw [hopen] at hcur
        exact Finset.not_nonempty_empty hcur
      have hactive : (s.eprocess p).ActiveThreads = 0 := by
        rw [h.active p hp, hopen]
        rfl
      obtain ⟨hheader, hflags, hentry⟩ := h.ordinary p hp hsys
      have hself : next.eprocess p = { s.eprocess p with RundownProtect := 0 } := by
        subst hnext
        simp [hone]
      obtain ⟨dead, hdead⟩ : ∃ dead : Ps τ, dead = { next with
        eprocess := Function.update next.eprocess p
          { next.eprocess p with header := deadHeader .OBJECT_TYPE_PROCESS }
        log := .use p true :: .use p true :: next.log } := ⟨_, rfl⟩
      have hdeadself : dead.eprocess p =
          { s.eprocess p with RundownProtect := 0, header := deadHeader .OBJECT_TYPE_PROCESS } := by
        subst hdead
        simp [hself]
      have hother : ∀ q, q ≠ p → dead.eprocess q = s.eprocess q := by
        intro q hq
        subst hdead hnext
        simp [hq]
      have hnextproc : p ∈ next.processes := hshape.processes ▸ hproc
      rw [assert_of_true hactive, kernel_ok_bind, obDereferenceProcess_eq hnextproc
        (by rw [hself]; exact hheader) (by rw [hself]; exact hflags) (by subst hnext; exact hcurne)
        (by rw [hself]) hdead, hself]
      have hdeadinv : PsInvariant idle sys (owes (s.eprocess p).Parent) dead := by
        have hkill : PsInvariant idle sys (owes (next.eprocess p).Parent) dead :=
          hinv.kill (hshape.alive ▸ hp) (by rw [hshape.openThreads, hopen])
          (by rw [hshape.children, hchildren]) (by subst hdead; rfl) (by subst hdead; rfl)
          (by subst hdead; rfl) (by subst hdead; rfl) (by subst hdead; rfl)
          (by rw [hdeadself]; rfl)
          (by intro q hq; subst hdead; simp [hq])
        rwa [hself] at hkill
      have hdeadalive : dead.alive = s.alive.erase p :=
        Ps.alive_kill (by subst hdead hnext; rfl) (by rw [hdeadself]; rfl) hother
      have hpdead : p ∉ dead.alive := by
        rw [hdeadalive]
        exact Finset.notMem_erase p _
      -- whoever owns pages now owned them before, and is not the process
      have howns : ∀ o, dead.Owns sys o → s.Owns sys o ∧ dead.area o = s.area o ∧ o ≠ .inr p := by
        intro o ho
        cases o with
        | inl t => exact ⟨by subst hdead hnext; exact ho, by subst hdead hnext; rfl, Sum.inl_ne_inr⟩
        | inr q =>
          obtain ⟨hq, hne⟩ := ho
          rw [hdeadalive] at hq
          obtain ⟨hqp, hq⟩ := Finset.mem_erase.mp hq
          exact ⟨⟨hq, hne⟩, by simp only [Ps.area, hother q hqp], fun e => hqp (Sum.inr.inj e)⟩
      have hdir : Ps.area s (.inr p) = ((s.eprocess p).DirectoryTableBase, 1) := rfl
      have hapart : ∀ o, dead.Owns sys o →
          Apart (dead.area o) ((s.eprocess p).DirectoryTableBase, 1) := by
        intro o ho
        obtain ⟨ho, harea, hne⟩ := howns o ho
        rw [harea, ← hdir]
        exact h.apart o (.inr p) ho ⟨hp, hsys⟩ hne
      -- the parent is told
      have hrec : ∃ told, (if (s.eprocess p).Parent ≠ NULL then
            psDecProcessRundownProtect current n (s.eprocess p).Parent dead else .ok dead) = .ok told
          ∧ PsInvariant idle sys noDebt told ∧ dead.Descends sys told ∧ LogGrows dead told := by
        by_cases hparent : (s.eprocess p).Parent = NULL
        · rw [if_neg (not_not.mpr hparent)]
          refine ⟨dead, rfl, ?_, Ps.Descends.refl dead, [], rfl,
            ⟨by simp, fun _ => rfl, by simp⟩, by simp⟩
          refine hdeadinv.of_shape ⟨rfl, rfl, rfl, rfl, fun _ => ⟨rfl, rfl, rfl⟩,
            fun _ => ⟨rfl, rfl, rfl, rfl, rfl⟩⟩ (fun q hq => ?_) fun _ _ => rfl
          have hqne : q ≠ (s.eprocess p).Parent := by
            rw [hparent]
            exact hdeadinv.ne_null hq
          rw [owes, if_neg hqne, noDebt]
        · rw [if_pos hparent]
          have halive := h.parent p hp hparent
          have hself' : (s.eprocess p).Parent ≠ p := by
            intro hcycle
            have hmem : p ∈ s.children p := Ps.mem_children.mpr ⟨hp, hcycle⟩
            rw [hchildren] at hmem
            exact Finset.notMem_empty _ hmem
          have hmem : (s.eprocess p).Parent ∈ dead.alive := by
            rw [hdeadalive]
            exact Finset.mem_erase.mpr ⟨hself', halive⟩
          have hcard : dead.alive.card < n := by
            have hlt := Finset.card_erase_lt_of_mem hp
            rw [hdeadalive]
            omega
          obtain ⟨told, hrun, hinv', hdesc, hlog, -⟩ :=
            ih hdeadinv hmem (by subst hdead hnext; exact hcur) hcard
          exact ⟨told, hrun, hinv', hdesc, hlog⟩
      obtain ⟨told, hrun, htoldinv, hdesc, new, hlog, htidy, hthread⟩ := hrec
      -- the process is buried
      have hptold : p ∈ told.processes :=
        hdesc.kept p (by subst hdead hnext; exact hproc) hpdead
      have hpalive : p ∉ told.alive := fun hmem => hpdead (hdesc.alive hmem)
      have htoldself : told.eprocess p = dead.eprocess p := hdesc.dead p hpdead
      have hpid : told.PidTable (s.eprocess p).UniqueProcessId = .object p :=
        hdesc.pid _ p hpdead (by subst hdead hnext; exact hentry)
      have hholds : told.systemPtes.Holds ((s.eprocess p).DirectoryTableBase, 1) :=
        hdesc.holds _ (by subst hdead hnext; exact h.pages (.inr p) ⟨hp, hsys⟩) hapart
      obtain ⟨ptes, hfree, hcount, hkeep⟩ :=
        mmFreeSystemPtes_holds Nat.zero_lt_one htoldinv.pteCount hholds
      have hfree' : mmFreeSystemPtes (told.eprocess p).DirectoryTableBase 1 told.systemPtes
          = .ok ptes := by
        rw [htoldself, hdeadself]
        exact hfree
      have hbury :=
        buryProcess_eq (s := told) hptold (by rw [htoldself, hdeadself]; exact hpid) hfree'
      rw [hrun, kernel_ok_bind, hbury]
      have hpidother : ∀ i q, q ≠ p → told.PidTable i = .object q →
          Function.update told.PidTable (s.eprocess p).UniqueProcessId .invalid i = .object q := by
        intro i q hq hi
        have hne : i ≠ (s.eprocess p).UniqueProcessId := by
          rintro rfl
          rw [hpid] at hi
          exact hq (HANDLE_TABLE_ENTRY.object.inj hi).symm
        rw [Function.update_of_ne hne]
        exact hi
      have huid : (told.eprocess p).UniqueProcessId = (s.eprocess p).UniqueProcessId := by
        rw [htoldself, hdeadself]
      have hactive' : (told.eprocess p).ActiveThreads = 0 := by
        rw [htoldself, hdeadself]
        exact hactive
      have hburied : Ps.alive { told with
          processes := told.processes.erase p
          PidTable := Function.update told.PidTable (told.eprocess p).UniqueProcessId .invalid
          userMapped := Function.update told.userMapped p fun _ => false
          systemPtes := ptes
          log := .destroy p (told.eprocess p).ActiveThreads :: .use p true :: .use p true
            :: told.log } = told.alive := by
        ext q
        rw [Ps.mem_alive, Ps.mem_alive, Finset.mem_erase, and_assoc]
        exact ⟨And.right, fun hq => ⟨fun e => hpalive (Ps.mem_alive.mpr (e ▸ hq)), hq⟩⟩
      refine ⟨_, rfl, ?_, ?_, ?_, ?_⟩
      · refine htoldinv.bury hpalive rfl rfl rfl rfl ?_ hcount ?_
        · rw [huid]
          exact hpidother
        · intro o ho
          obtain ⟨hodead, harea⟩ := hdesc.owns ho
          refine hkeep _ (htoldinv.pages o ho) ?_
          rw [harea]
          exact (hapart o hodead).symm
      · constructor
        · exact hdesc.threads.trans (by subst hdead hnext; rfl)
        · exact hdesc.ethread.trans (by subst hdead hnext; rfl)
        · exact hdesc.userBitmap.trans (by subst hdead hnext; rfl)
        · exact hdesc.userBitmaps.trans (by subst hdead hnext; rfl)
        · exact hdesc.lock.trans (by subst hdead hnext; rfl)
        · intro q hq
          have hq := hdesc.processes (Finset.mem_of_mem_erase hq)
          subst hdead hnext
          exact hq
        · intro q hq hqa
          have hqp : q ≠ p := fun e => hqa (e ▸ hp)
          refine Finset.mem_erase.mpr ⟨hqp, hdesc.kept q (by subst hdead hnext; exact hq) ?_⟩
          rw [hdeadalive]
          exact fun hmem => hqa (Finset.mem_of_mem_erase hmem)
        · intro q hq hqa
          obtain ⟨hqp, hq⟩ := Finset.mem_erase.mp hq
          rw [hburied]
          refine hdesc.gone q hq ?_
          rw [hdeadalive]
          exact Finset.mem_erase.mpr ⟨hqp, hqa⟩
        · intro q hqa
          have hqp : q ≠ p := fun e => hqa (e ▸ hp)
          rw [hdesc.dead q (by rw [hdeadalive]; exact fun hmem => hqa (Finset.mem_of_mem_erase hmem)),
            hother q hqp]
        · rw [hburied]
          intro q hq
          have hmem := hdesc.alive hq
          rw [hdeadalive] at hmem
          exact Finset.mem_of_mem_erase hmem
        · intro q
          by_cases hqp : q = p
          · subst hqp
            exact ⟨_, _, htoldself.trans hdeadself⟩
          · obtain ⟨r, header, hmembers⟩ := hdesc.members q
            rw [hother q hqp] at hmembers
            exact ⟨r, header, hmembers⟩
        · rw [hburied]
          intro q hq
          have hqp : q ≠ p := fun e => hpalive (e ▸ hq)
          have hmapped := hdesc.mapped q hq
          rw [show dead.userMapped = s.userMapped by subst hdead hnext; rfl] at hmapped
          exact (Function.update_of_ne hqp ..).trans hmapped
        · intro i q hqa hi
          have hqp : q ≠ p := fun e => hqa (e ▸ hp)
          rw [huid]
          refine hpidother i q hqp (hdesc.pid i q ?_ (by subst hdead hnext; exact hi))
          rw [hdeadalive]
          exact fun hmem => hqa (Finset.mem_of_mem_erase hmem)
        · intro a ha hoapart
          refine hkeep a (hdesc.holds a (by subst hdead hnext; exact ha) fun o ho => ?_)
            (hoapart (.inr p) ⟨hp, hsys⟩)
          obtain ⟨ho, harea, -⟩ := howns o ho
          rw [harea]
          exact hoapart o ho
      · refine ⟨.destroy p 0 :: .use p true :: .use p true :: (new ++ [.use p true, .use p true,
          .decrement p 0, .use p true]), ?_, htidy.destroy, ?_⟩
        · have hlog' : dead.log = [.use p true, .use p true, .decrement p 0, .use p true] ++ s.log := by
            subst hdead hnext
            simp [hone]
          rw [hlog'] at hlog
          simp only [hlog, hactive', List.cons_append, List.append_assoc]
        · intro a ha
          simp only [List.mem_cons, List.mem_append, List.not_mem_nil, or_false] at ha
          rcases ha with rfl | rfl | rfl | ha | rfl | rfl | rfl | rfl
          all_goals first | rfl | exact hthread a ha
      · refine ⟨fun hmem => absurd hmem (Finset.notMem_erase p _), fun hne => absurd hone hne⟩
    · -- others still protect it
      rw [if_neg (by omega)]
      refine ⟨next, rfl, hinv, ?_, ⟨[_, _], by subst hnext; rfl, tidy_decrement (by omega), ?_⟩, ?_⟩
      · subst hnext
        exact Ps.Descends.decrement hp
      · intro a ha
        simp only [List.mem_cons, List.not_mem_nil, or_false] at ha
        rcases ha with rfl | rfl
        · rfl
        · rfl
      · exact ⟨fun _ => hone, fun _ => hshape.processes ▸ hproc⟩

/-! ## Locks -/

section Threads

variable [DecidableEq τ]

/-- A lock that the thread `current` has taken from the given IRQL. -/
def KSPIN_LOCK.heldBy (current : τ) (oldIrql : Nat) : KSPIN_LOCK τ :=
  { Lock := 1, Thread := some current, OldIrql := oldIrql }

/-- Taking a lock that is free. -/
theorem keAcquireSpinLock_free {irql : Nat} (hirql : irql ≤ DISPATCH_LEVEL) :
    keAcquireSpinLock irql current KSPIN_LOCK.free = .ok (.heldBy current irql) := by
  have hthread : ¬ (KSPIN_LOCK.free : KSPIN_LOCK τ).Thread ≠ none := fun h => h rfl
  simp only [keAcquireSpinLock, keAcquireSpinLockCheck, assert_of_true hirql, kernel_ok_bind,
    if_neg hthread]
  rfl

/-- Releasing the lock of a process. -/
theorem keReleaseProcessLock_heldBy (irql : Nat) :
    keReleaseProcessLock irql current (.heldBy current irql) = .ok .free := by
  simp [keReleaseProcessLock, keReleaseSpinLock, KSPIN_LOCK.heldBy, KSPIN_LOCK.reset, assert,
    KSPIN_LOCK.free, pure, Except.pure]

/-- **Being attached** to another process, when nobody holds the lock of the dispatcher. -/
theorem attached_eq {α : Type} {irql : Nat} {f : Ps τ → Kernel (α × Ps τ)} {a : α}
    (hirql : irql ≤ DISPATCH_LEVEL) (hlock : s.DispatcherDataBaseLock = .free)
    (hf : f { s with DispatcherDataBaseLock := .heldBy current irql } = .ok (a, s'))
    (hf' : s'.DispatcherDataBaseLock = .heldBy current irql) :
    attached irql current f s = .ok (a, { s' with DispatcherDataBaseLock := .free }) := by
  have hrelease : keReleaseSpinLock .DispatcherDataBaseLock DISPATCH_LEVEL irql current
      (.heldBy current irql : KSPIN_LOCK τ) = .ok .free := by
    simp [keReleaseSpinLock, KSPIN_LOCK.heldBy, KSPIN_LOCK.reset, assert, KSPIN_LOCK.free, pure,
      Except.pure]
  simp only [attached, hlock, keAcquireSpinLock_free hirql, kernel_ok_bind, hf, hf', hrelease]
  rfl

/-! ## Closing a thread -/

/-- The flags of a thread that has been created are taken back one after the other. -/
theorem removeThread_eq (hflags : (s.ethread t).Flags = threadFlags) :
    removeThread t p s = .ok { s with
      ethread := Function.update s.ethread t { s.ethread t with Flags := 0 }
      eprocess := Function.update s.eprocess p
        { s.eprocess p with ThreadListHead := (s.eprocess p).ThreadListHead.erase t } } := by
  have hcontext : takeBackFlag THREAD_FLAG_CONTEXT_CREATED
      (THREAD_FLAG_ALLOCATED ||| THREAD_FLAG_INSERTED) threadFlags
      "Thread->Flags == (THREAD_FLAG_ALLOCATED | THREAD_FLAG_INSERTED)"
      = .ok (THREAD_FLAG_ALLOCATED ||| THREAD_FLAG_INSERTED) := by decide
  have hinserted : takeBackFlag THREAD_FLAG_INSERTED THREAD_FLAG_ALLOCATED
      (THREAD_FLAG_ALLOCATED ||| THREAD_FLAG_INSERTED) "Thread->Flags == THREAD_FLAG_ALLOCATED"
      = .ok THREAD_FLAG_ALLOCATED := by decide
  have hallocated : takeBackFlag THREAD_FLAG_ALLOCATED 0 THREAD_FLAG_ALLOCATED "Thread->Flags == 0"
      = .ok 0 := by decide
  have hflag : (THREAD_FLAG_ALLOCATED ||| THREAD_FLAG_INSERTED) &&& THREAD_FLAG_INSERTED ≠ 0 := by
    decide
  simp only [removeThread, hflags, hcontext, hinserted, hallocated, kernel_ok_bind]
  rw [if_pos hflag]
  rfl

/-- **What `PsCloseThread` needs**: another thread, of another process, and a user stack that can be
freed. -/
structure CloseGuards (current : τ) (currentProcess : UInt32) (state : THREAD_STATE) (t : τ)
    (s : Ps τ) : Prop where
  ne : current ≠ t
  state : state = .TERMINATED
  process : currentProcess ≠ (s.ethread t).ThreadsProcess
  stack : ∃ r, mmFreeUserPtes (s.ethread t).UserStack
    (s.userBitmap (s.eprocess (s.ethread t).ThreadsProcess).UserPtePool) THREAD_USER_STACK_SIZE
    (s.userMapped (s.ethread t).ThreadsProcess) = .ok r

/-- The state in which `PsCloseThread` has freed the stacks and the counters go down. -/
def Ps.stacksFreed (s : Ps τ) (current t : τ) (p : UInt32) (bitmap : BITMAP) (mapped : Nat → Bool)
    (ptes : SystemPtes) : Ps τ :=
  { s with
    ethread := Function.update s.ethread t { s.ethread t with Flags := 0 }
    eprocess := Function.update s.eprocess p
      { s.eprocess p with
        ProcessLock := .heldBy current DISPATCH_LEVEL
        ThreadListHead := (s.eprocess p).ThreadListHead.erase t
        ActiveThreads := (s.eprocess p).ActiveThreads - 1 }
    userBitmap := Function.update s.userBitmap (s.eprocess p).UserPtePool bitmap
    userMapped := Function.update s.userMapped p mapped
    systemPtes := ptes
    log := [.use p true, .freeKernelStack t, .freeUserStack t, .use p true, .close t] ++ s.log }

/-- The release of the lock of a process that may be gone, at the end of `PsCloseThread`. -/
def releaseProcess (current : τ) (p : UInt32) (s : Ps τ) : Kernel (Ps τ) := do
  let s := s.useProcess p
  let lock ← keReleaseProcessLock DISPATCH_LEVEL current (s.eprocess p).ProcessLock
  return s.modifyProcess p fun e => { e with ProcessLock := lock }

/-- **Closing a thread comes down to a decrement** and the release of the lock. -/
theorem psCloseThread_eq {currentProcess : UInt32} {state : THREAD_STATE} {bitmap : BITMAP}
    {mapped : Nat → Bool} {ptes : SystemPtes}
    (hg : CloseGuards current currentProcess state t s)
    (hflags : (s.ethread t).Flags = threadFlags) (hprocess : (s.ethread t).ThreadsProcess = p)
    (hnull : p ≠ NULL) (hp : p ∈ s.processes) (hactive : (s.eprocess p).ActiveThreads ≠ 0)
    (hlock : (s.eprocess p).ProcessLock = .free) (hdispatcher : s.DispatcherDataBaseLock = .free)
    (huser : mmFreeUserPtes (s.ethread t).UserStack (s.userBitmap (s.eprocess p).UserPtePool)
      THREAD_USER_STACK_SIZE (s.userMapped p) = .ok (bitmap, mapped))
    (hkernel : mmFreeSystemPtes (s.ethread t).KernelStack THREAD_STACK_SIZE s.systemPtes
      = .ok ptes) :
    psCloseThread current currentProcess state t s
      = psDecProcessRundownProtect current (s.processes.card + 1) p
          (s.stacksFreed current t p bitmap mapped ptes) >>= releaseProcess current p := by
  have hallocated : (s.ethread t).Flags &&& THREAD_FLAG_ALLOCATED ≠ 0 := by
    rw [hflags]
    decide
  have hother : ¬ currentProcess = p := hprocess ▸ hg.process
  -- the thread is taken off the list of the process, whose lock is held
  obtain ⟨locked, hlocked⟩ : ∃ locked : Ps τ, locked = { s with
    eprocess := Function.update s.eprocess p
      { s.eprocess p with ProcessLock := .heldBy current DISPATCH_LEVEL }
    log := .use p true :: .close t :: s.log } := ⟨_, rfl⟩
  obtain ⟨removed, hremoved⟩ : ∃ removed : Ps τ, removed = { s with
    ethread := Function.update s.ethread t { s.ethread t with Flags := 0 }
    eprocess := Function.update s.eprocess p
      { s.eprocess p with
        ProcessLock := .heldBy current DISPATCH_LEVEL
        ThreadListHead := (s.eprocess p).ThreadListHead.erase t }
    log := .use p true :: .close t :: s.log } := ⟨_, rfl⟩
  have hremove : removeThread t p locked = .ok removed := by
    rw [removeThread_eq (by subst hlocked; exact hflags), hlocked, hremoved]
    simp
  -- the user stack is freed
  have hstack : freeUserStack t p
      { removed with DispatcherDataBaseLock := .heldBy current DISPATCH_LEVEL } = .ok ((),
      { removed with
        DispatcherDataBaseLock := .heldBy current DISPATCH_LEVEL
        userBitmap := Function.update s.userBitmap (s.eprocess p).UserPtePool bitmap
        userMapped := Function.update s.userMapped p mapped
        log := .freeUserStack t :: removed.log }) := by
    subst hremoved
    simp only [freeUserStack, Function.update_self, huser, kernel_ok_bind, Ps.record]
    rfl
  have hattached := attached_eq (Nat.le_refl DISPATCH_LEVEL)
    (s := removed) (by subst hremoved; exact hdispatcher) hstack rfl
  -- the kernel stack is freed
  have hfreed : freeKernelStack t
      { removed with
        DispatcherDataBaseLock := .free
        userBitmap := Function.update s.userBitmap (s.eprocess p).UserPtePool bitmap
        userMapped := Function.update s.userMapped p mapped
        log := .freeUserStack t :: removed.log } (s.ethread t).KernelStack = .ok
      { removed with
        DispatcherDataBaseLock := .free
        userBitmap := Function.update s.userBitmap (s.eprocess p).UserPtePool bitmap
        userMapped := Function.update s.userMapped p mapped
        systemPtes := ptes
        log := .freeKernelStack t :: .freeUserStack t :: removed.log } := by
    subst hremoved
    simp only [freeKernelStack, hkernel, kernel_ok_bind, Ps.record]
    rfl
  have hkernelStack : (removed.ethread t).KernelStack = (s.ethread t).KernelStack := by
    subst hremoved
    simp
  have hleave : leaveProcess current p
      { removed with
        DispatcherDataBaseLock := .free
        userBitmap := Function.update s.userBitmap (s.eprocess p).UserPtePool bitmap
        userMapped := Function.update s.userMapped p mapped
        systemPtes := ptes
        log := .freeKernelStack t :: .freeUserStack t :: removed.log }
      = psDecProcessRundownProtect current (s.processes.card + 1) p
          (s.stacksFreed current t p bitmap mapped ptes) >>= releaseProcess current p := by
    subst hremoved
    simp only [leaveProcess, Ps.useProcess, Ps.record, hp, decide_true, Ps.modifyProcess,
      Function.update_self, Function.update_idem, Ps.stacksFreed, hdispatcher]
    rfl
  simp only [psCloseThread, Ps.record, assert_of_true hg.ne, assert_of_true hg.state,
    kernel_ok_bind, hprocess, assert_of_true hnull, Ps.useProcess, hp,
    decide_true, assert_of_true hactive, if_neg hother, hlock,
    keAcquireSpinLock_free (Nat.le_refl DISPATCH_LEVEL), Ps.modifyProcess]
  rw [← hlocked, hremove, kernel_ok_bind, hattached, kernel_ok_bind]
  simp only [hkernelStack]
  show (assert ((s.ethread t).Flags &&& THREAD_FLAG_ALLOCATED ≠ 0) _ >>= _) = _
  rw [assert_of_true hallocated, kernel_ok_bind, hfreed, kernel_ok_bind, hleave]

/-- **`PsCloseThread` returns only under its guards.** -/
theorem psCloseThread_guards {currentProcess : UInt32} {state : THREAD_STATE}
    (hrun : psCloseThread current currentProcess state t s = .ok s')
    (hflags : (s.ethread t).Flags = threadFlags) :
    CloseGuards current currentProcess state t s := by
  obtain ⟨_, hne, hrun⟩ := kernel_bind_eq_ok.mp hrun
  obtain ⟨_, hstate, hrun⟩ := kernel_bind_eq_ok.mp hrun
  obtain ⟨_, -, hrun⟩ := kernel_bind_eq_ok.mp hrun
  obtain ⟨_, -, hrun⟩ := kernel_bind_eq_ok.mp hrun
  obtain ⟨_, -, hrun⟩ := kernel_bind_eq_ok.mp hrun
  split at hrun
  · cases hrun
  · rename_i hprocess
    obtain ⟨lock, -, hrun⟩ := kernel_bind_eq_ok.mp hrun
    obtain ⟨removed, hremove, hrun⟩ := kernel_bind_eq_ok.mp hrun
    obtain ⟨⟨_, freed⟩, hattached, -⟩ := kernel_bind_eq_ok.mp hrun
    obtain ⟨_, -, hattached⟩ := kernel_bind_eq_ok.mp hattached
    obtain ⟨_, hstack, -⟩ := kernel_bind_eq_ok.mp hattached
    obtain ⟨r, huser, -⟩ := kernel_bind_eq_ok.mp hstack
    generalize hlocked : Ps.modifyProcess _ _ _ = locked at hremove
    rw [removeThread_eq (by rw [← hlocked]; exact hflags)] at hremove
    cases hremove
    subst hlocked
    refine ⟨assert_eq_ok.mp hne, assert_eq_ok.mp hstate, hprocess, r, ?_⟩
    simpa [Ps.useProcess, Ps.record, Ps.modifyProcess] using huser

/-- The state in which `PsCloseThread` returns, from the one behind the decrement. -/
def Ps.processReleased (s : Ps τ) (p : UInt32) : Ps τ :=
  { s with
    eprocess := Function.update s.eprocess p { s.eprocess p with ProcessLock := .free }
    log := .use p (p ∈ s.processes) :: s.log }

/-- Releasing the lock of a process, whether it is still there or not. -/
theorem releaseProcess_eq
    (hlock : (s.eprocess p).ProcessLock = .heldBy current DISPATCH_LEVEL) :
    releaseProcess current p s = .ok (s.processReleased p) := by
  simp only [releaseProcess, Ps.useProcess, Ps.record, hlock, keReleaseProcessLock_heldBy,
    kernel_ok_bind]
  rfl

/-- **What closing the thread `t` does**: the processes that it takes with it go, and nothing else. -/
structure Ps.ThreadClosed (sys : UInt32) (t : τ) (s s' : Ps τ) : Prop where
  threads : s'.threads = s.threads
  self : s'.ethread t = { s.ethread t with Flags := 0 }
  other : ∀ i, i ≠ t → s'.ethread i = s.ethread i
  processes : s'.processes ⊆ s.processes
  gone : ∀ q ∈ s'.processes, q ∈ s.alive → q ∈ s'.alive
  locks : ∀ q, (s.eprocess q).ProcessLock = .free → (s'.eprocess q).ProcessLock = .free
  lock : s'.DispatcherDataBaseLock = .free
  owns : ∀ o, s'.Owns sys o → s.Owns sys o ∧ s'.area o = s.area o
  holds : ∀ a, s.systemPtes.Holds a → (∀ o, s.Owns sys o → Apart (s.area o) a) →
    s'.systemPtes.Holds a

/-- **What closing a thread writes to the log**, when the last use of its process finds it allocated
or not. -/
def ClosingLog (t : τ) (p : UInt32) (allocated : Bool) (s s' : Ps τ) : Prop :=
  ∃ new, s'.log = .use p allocated :: (new ++ [.use p true, .freeKernelStack t, .freeUserStack t,
      .use p true, .close t] ++ s.log)
    ∧ Tidy new ∧ ∀ a ∈ new, a.ofThread = false

/-- **Closing a thread of another process returns** if its user stack can be freed. It uses the
process at the end, which is gone by then if only the thread has protected it. -/
theorem psCloseThread_spec {currentProcess : UInt32} {state : THREAD_STATE}
    (h : PsInvariant idle sys noDebt s) (hg : CloseGuards current currentProcess state t s)
    (ht : t ∈ s.threads) (hf : (s.ethread t).Flags ≠ 0) (hidle : idle ≠ t)
    (hprocess : (s.ethread t).ThreadsProcess = p)
    (hcur : ((s.openThreads (s.ethread current).ThreadsProcess).erase t).Nonempty)
    (hlock : (s.eprocess p).ProcessLock = .free) (hdispatcher : s.DispatcherDataBaseLock = .free) :
    ∃ s', psCloseThread current currentProcess state t s = .ok s' ∧ PsInvariant idle sys noDebt s'
      ∧ s.ThreadClosed sys t s'
      ∧ ClosingLog t p ((s.eprocess p).RundownProtect ≠ 1) s s' := by
  subst hprocess
  have hp := h.threadProcess t ht hf
  have hproc := Ps.mem_processes_of_alive hp
  have hmem : t ∈ s.openThreads (s.ethread t).ThreadsProcess := Ps.mem_openThreads.mpr ⟨ht, hf, rfl⟩
  have hactive : (s.eprocess (s.ethread t).ThreadsProcess).ActiveThreads ≠ 0 := by
    rw [h.active _ hp]
    exact Finset.card_ne_zero_of_mem hmem
  obtain ⟨⟨bitmap, mapped⟩, huser⟩ := hg.stack
  obtain ⟨ptes, hkernel, hcount, hkeep⟩ := mmFreeSystemPtes_holds (by decide) h.pteCount
    (h.pages (.inl t) ⟨ht, hf⟩)
  rw [psCloseThread_eq hg (h.flags t ht hf) rfl (h.ne_null hp) hproc hactive hlock hdispatcher huser
    hkernel]
  -- the stacks have been freed, and the counters are to go down
  obtain ⟨freed, hfreed⟩ : ∃ freed : Ps τ,
    freed = s.stacksFreed current t (s.ethread t).ThreadsProcess bitmap mapped ptes := ⟨_, rfl⟩
  rw [← hfreed]
  have hself : freed.ethread t = { s.ethread t with Flags := 0 } := by
    subst hfreed
    exact Function.update_self ..
  have hother : ∀ i, i ≠ t → freed.ethread i = s.ethread i := by
    intro i hi
    subst hfreed
    exact Function.update_of_ne hi ..
  have hmembers : ∀ q, ∃ lock list active, freed.eprocess q =
      { s.eprocess q with
        ProcessLock := lock, ThreadListHead := list, ActiveThreads := active } := by
    intro q
    subst hfreed
    by_cases hq : q = (s.ethread t).ThreadsProcess
    · subst hq
      exact ⟨_, _, _, Function.update_self ..⟩
    · exact ⟨_, _, _, Function.update_of_ne hq ..⟩
  have hthreads : freed.threads = s.threads := by subst hfreed; rfl
  have hprocs : freed.processes = s.processes := by subst hfreed; rfl
  have hptes : freed.systemPtes = ptes := by subst hfreed; rfl
  have hownedge : ∀ o, s.Owns sys o → o ≠ .inl t → freed.systemPtes.Holds (s.area o) := by
    intro o ho hne
    rw [hptes]
    exact hkeep _ (h.pages o ho) (h.apart (.inl t) o ⟨ht, hf⟩ ho hne.symm)
  have hinv : PsInvariant idle sys (owes (s.ethread t).ThreadsProcess) freed := by
    refine h.close ht hf hidle hthreads hprocs (by subst hfreed; rfl) (by rw [hself]) hother hmembers
      (fun q _ => ?_) (by rw [hptes]; exact hcount) hownedge
    subst hfreed
    by_cases hq : q = (s.ethread t).ThreadsProcess
    · subst hq
      simp only [Ps.stacksFreed, Function.update_self, owes, if_true]
      omega
    · simp [Ps.stacksFreed, owes, hq]
  have halive : freed.alive = s.alive := by
    ext q
    obtain ⟨lock, list, active, hq⟩ := hmembers q
    rw [Ps.mem_alive, Ps.mem_alive, hprocs, hq]
  -- whoever owns pages now owned them before
  have howns : ∀ o, freed.Owns sys o → s.Owns sys o ∧ freed.area o = s.area o := by
    intro o ho
    cases o with
    | inl i =>
      obtain ⟨hi, hfi⟩ := ho
      have hit : i ≠ t := by
        rintro rfl
        rw [hself] at hfi
        exact hfi rfl
      rw [hthreads] at hi
      rw [hother i hit] at hfi
      exact ⟨⟨hi, hfi⟩, by simp only [Ps.area, hother i hit]⟩
    | inr q =>
      obtain ⟨hq, hne⟩ := ho
      obtain ⟨lock, list, active, heq⟩ := hmembers q
      rw [halive] at hq
      exact ⟨⟨hq, hne⟩, by simp only [Ps.area, heq]⟩
  have hcur' : (freed.openThreads (freed.ethread current).ThreadsProcess).Nonempty := by
    rw [hother current hg.ne, Ps.openThreads_close hthreads (by rw [hself]) hother]
    exact hcur
  have hdepth : freed.alive.card < s.processes.card + 1 := by
    rw [halive]
    exact Nat.lt_succ_of_le (Finset.card_le_card fun q => Ps.mem_processes_of_alive)
  obtain ⟨told, hrun, htold, hdesc, ⟨new, hlog, htidy, hnew⟩, hstays⟩ :=
    psDecProcessRundownProtect_spec hinv (halive ▸ hp) hcur' hdepth
  have hrundown : (freed.eprocess (s.ethread t).ThreadsProcess).RundownProtect
      = (s.eprocess (s.ethread t).ThreadsProcess).RundownProtect := by
    obtain ⟨lock, list, active, hq⟩ := hmembers (s.ethread t).ThreadsProcess
    rw [hq]
  rw [hrundown] at hstays
  have hheld : (told.eprocess (s.ethread t).ThreadsProcess).ProcessLock
      = .heldBy current DISPATCH_LEVEL := by
    obtain ⟨r, header, hq⟩ := hdesc.members (s.ethread t).ThreadsProcess
    rw [hq]
    subst hfreed
    simp [Ps.stacksFreed]
  -- the lock of the process is released
  obtain ⟨done, hdone⟩ : ∃ done : Ps τ,
    done = told.processReleased (s.ethread t).ThreadsProcess := ⟨_, rfl⟩
  have hshape : told.SameShape done := by
    subst hdone
    exact Ps.SameShape.store ⟨rfl, rfl, rfl, rfl, rfl⟩
  have hdonemembers : ∀ q, (done.eprocess q).RundownProtect = (told.eprocess q).RundownProtect
      ∧ (done.eprocess q).ActiveThreads = (told.eprocess q).ActiveThreads := by
    intro q
    subst hdone
    by_cases hq : q = (s.ethread t).ThreadsProcess
    · subst hq
      simp [Ps.processReleased]
    · simp [Ps.processReleased, hq]
  refine ⟨done, ?_, ?_, ?_, new, ?_, htidy, hnew⟩
  · rw [hrun, kernel_ok_bind, releaseProcess_eq hheld, hdone]
  · refine htold.of_shape hshape (fun q _ => ?_) fun q _ => (hdonemembers q).2
    rw [(hdonemembers q).1]
  · refine ⟨hshape.threads.trans (hdesc.threads.trans hthreads), ?_, ?_, ?_, ?_, ?_, ?_, ?_, ?_⟩
    · subst hdone
      exact (congrFun hdesc.ethread t).trans hself
    · intro i hi
      subst hdone
      exact (congrFun hdesc.ethread i).trans (hother i hi)
    · intro q hq
      rw [hshape.processes] at hq
      exact hprocs ▸ hdesc.processes hq
    · intro q hq hqa
      rw [hshape.processes] at hq
      rw [hshape.alive]
      exact hdesc.gone q hq (halive ▸ hqa)
    · intro q hq
      by_cases hqp : q = (s.ethread t).ThreadsProcess
      · subst hdone hqp
        simp [Ps.processReleased]
      · obtain ⟨r, header, htoldq⟩ := hdesc.members q
        subst hdone
        simp only [Ps.processReleased, Function.update_of_ne hqp, htoldq]
        subst hfreed
        simp only [Ps.stacksFreed, Function.update_of_ne hqp, hq]
    · subst hdone
      refine hdesc.lock.trans ?_
      subst hfreed
      exact hdispatcher
    · intro o ho
      obtain ⟨ho, harea⟩ := hdesc.owns (hshape.owns o |>.mp ho)
      have hback := howns o ho
      exact ⟨hback.1, (hshape.area o).trans (harea.trans hback.2)⟩
    · intro a ha hapart
      rw [hshape.ptes]
      refine hdesc.holds a ?_ fun o ho => ?_
      · rw [hptes]
        exact hkeep a ha (hapart (.inl t) ⟨ht, hf⟩)
      · have hback := howns o ho
        rw [hback.2]
        exact hapart o hback.1
  · have hallocated : decide ((s.ethread t).ThreadsProcess ∈ told.processes)
        = decide ((s.eprocess (s.ethread t).ThreadsProcess).RundownProtect ≠ 1) :=
      decide_eq_decide.mpr hstays
    subst hdone
    simp only [Ps.processReleased, hlog, hallocated]
    subst hfreed
    rw [List.append_assoc]
    rfl

/-! ## Dropping the reference to a thread -/

/-- **What dropping the last reference to the thread `t` does**: the thread is closed, and its memory
is given back. -/
structure Ps.ThreadGone (sys : UInt32) (t : τ) (s s' : Ps τ) : Prop where
  threads : s'.threads = s.threads.erase t
  other : ∀ i, i ≠ t → s'.ethread i = s.ethread i
  self : (s'.ethread t).ThreadsProcess = (s.ethread t).ThreadsProcess
  processes : s'.processes ⊆ s.processes
  gone : ∀ q ∈ s'.processes, q ∈ s.alive → q ∈ s'.alive
  locks : ∀ q, (s.eprocess q).ProcessLock = .free → (s'.eprocess q).ProcessLock = .free
  lock : s'.DispatcherDataBaseLock = .free
  owns : ∀ o, s'.Owns sys o → s.Owns sys o ∧ s'.area o = s.area o
  holds : ∀ a, s.systemPtes.Holds a → (∀ o, s.Owns sys o → Apart (s.area o) a) →
    s'.systemPtes.Holds a

/-- The thread while it is closed: its only reference has been dropped. -/
def Ps.threadDropped (s : Ps τ) (t : τ) : Ps τ :=
  s.modifyThread t fun e => { e with header := deadHeader .OBJECT_TYPE_THREAD }

/-- Dropping the only reference to a thread closes it. -/
theorem obDereferenceThread_eq {currentProcess : UInt32} {state : THREAD_STATE}
    (hheader : (s.ethread t).header = createdHeader .OBJECT_TYPE_THREAD) :
    obDereferenceThread current currentProcess state t s = do
      let s ← psCloseThread current currentProcess state t (s.threadDropped t)
      return { s with threads := s.threads.erase t } := by
  simp only [obDereferenceThread, hheader, dereferenceHeader_created, kernel_ok_bind, if_true]
  rfl

/-- A thread whose reference has been dropped is still the same in all other respects. -/
theorem Ps.threadDropped_shape (s : Ps τ) (t : τ) : s.SameShape (s.threadDropped t) where
  threads := rfl
  processes := rfl
  pid := rfl
  ptes := rfl
  ethread i := by
    by_cases hi : i = t
    · subst hi
      simp [Ps.threadDropped, Ps.modifyThread]
    · simp [Ps.threadDropped, Ps.modifyThread, hi]
  eprocess _ := ⟨rfl, rfl, rfl, rfl, rfl⟩

/-- The guards of `PsCloseThread` do not depend on the header of the thread. -/
theorem closeGuards_threadDropped {currentProcess : UInt32} {state : THREAD_STATE} :
    CloseGuards current currentProcess state t (s.threadDropped t)
      ↔ CloseGuards current currentProcess state t s := by
  have hself : (s.threadDropped t).ethread t
      = { s.ethread t with header := deadHeader .OBJECT_TYPE_THREAD } := Function.update_self ..
  constructor
  · rintro ⟨hne, hstate, hprocess, hstack⟩
    rw [hself] at hprocess hstack
    exact ⟨hne, hstate, hprocess, hstack⟩
  · rintro ⟨hne, hstate, hprocess, hstack⟩
    refine ⟨hne, hstate, ?_, ?_⟩
    · rw [hself]
      exact hprocess
    · rw [hself]
      exact hstack

/-- **Dropping the reference to a thread** of another process returns if its user stack can be
freed. -/
theorem obDereferenceThread_spec {currentProcess : UInt32} {state : THREAD_STATE}
    (h : PsInvariant idle sys noDebt s) (hg : CloseGuards current currentProcess state t s)
    (ht : t ∈ s.threads) (hf : (s.ethread t).Flags ≠ 0) (hidle : idle ≠ t)
    (hheader : (s.ethread t).header = createdHeader .OBJECT_TYPE_THREAD)
    (hprocess : (s.ethread t).ThreadsProcess = p)
    (hcur : ((s.openThreads (s.ethread current).ThreadsProcess).erase t).Nonempty)
    (hlock : (s.eprocess p).ProcessLock = .free) (hdispatcher : s.DispatcherDataBaseLock = .free) :
    ∃ s', obDereferenceThread current currentProcess state t s = .ok s'
      ∧ PsInvariant idle sys noDebt s' ∧ s.ThreadGone sys t s'
      ∧ ClosingLog t p ((s.eprocess p).RundownProtect ≠ 1) s s' := by
  have hshape := s.threadDropped_shape t
  have hother : ∀ i, i ≠ t → (s.threadDropped t).ethread i = s.ethread i := fun i hi =>
    Function.update_of_ne hi ..
  have hdropped : PsInvariant idle sys noDebt (s.threadDropped t) :=
    h.of_shape hshape (fun _ _ => rfl) fun _ _ => rfl
  obtain ⟨closed, hrun, hinv, hclosed, hlog⟩ := psCloseThread_spec (p := p) hdropped
    (closeGuards_threadDropped.mpr hg) ht (by rw [(hshape.ethread t).1]; exact hf) hidle
    ((hshape.ethread t).2.1.trans hprocess)
    (by rw [hother current hg.ne, hshape.openThreads]; exact hcur) hlock hdispatcher
  have hflags : (closed.ethread t).Flags = 0 := by rw [hclosed.self]
  refine ⟨{ closed with threads := closed.threads.erase t }, ?_, hinv.eraseThread hflags, ?_, hlog⟩
  · rw [obDereferenceThread_eq hheader, hrun]
    rfl
  · refine ⟨congrArg (·.erase t) hclosed.threads, fun i hi => (hclosed.other i hi).trans (hother i hi),
      ?_, hclosed.processes, fun q hq hqa => ?_, hclosed.locks, hclosed.lock, fun o ho => ?_,
      fun a ha hapart => ?_⟩
    · show (closed.ethread t).ThreadsProcess = _
      rw [hclosed.self]
      exact (hshape.ethread t).2.1
    · exact hclosed.gone q hq (hshape.alive ▸ hqa)
    · have hback : closed.Owns sys o := by
        cases o with
        | inl i => exact ⟨Finset.mem_of_mem_erase ho.1, ho.2⟩
        | inr q => exact ho
      obtain ⟨hold, harea⟩ := hclosed.owns o hback
      have hsame : Ps.area { closed with threads := closed.threads.erase t } o = closed.area o := by
        cases o <;> rfl
      exact ⟨(hshape.owns o).mp hold, hsame.trans (harea.trans (hshape.area o))⟩
    · refine hclosed.holds a ha fun o ho => ?_
      rw [hshape.area]
      exact hapart o ((hshape.owns o).mp ho)

end Threads

end KaushOS
