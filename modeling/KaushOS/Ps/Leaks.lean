import KaushOS.Ps.Rundown

/-! # What a process leaves behind

`PspAllocateProcess` takes three system pages: for the handle table, for the page directory and for the
bitmap of the user PTEs. `PspFreeProcess` gives the page directory back. Nobody calls
`ObFreeHandleTable`, and nobody frees the page of the bitmap.

* **`Ps.Orphaned`** — a page that has been handed out and belongs to no thread or process.
* **`Ps.ProcessAdded.orphan`** — a new process makes one out of a page that was free, and no call ever
  gives it back.
* **`creation_not_neutral`** — so the system PTEs are never again what they were before a creation. -/

namespace KaushOS

open CircularList Transition

variable {τ : Type} {boot idle t : τ} {sys p parent : UInt32} {s s' : Ps τ} {a : Nat}
  {m m' : PsMachine τ}

/-- **A page that has been handed out and belongs to nobody.** -/
def Ps.Orphaned (sys : UInt32) (s : Ps τ) (a : Nat) : Prop :=
  s.systemPtes.Holds (a, 1) ∧ ∀ o, s.Owns sys o → Apart (s.area o) (a, 1)

/-- An orphaned page is marked. -/
theorem Ps.Orphaned.marked (h : s.Orphaned sys a) : s.systemPtes.Marked a := by
  obtain ⟨i, ha, -, hbits, -⟩ := h.1
  exact ⟨i, ha, hbits i (Nat.le_refl i) (Nat.lt_succ_self i)⟩

/-! ## Calls keep orphans -/

/-- **A new process orphans a page** that was not marked before: the one of its handle table. -/
theorem Ps.ProcessAdded.orphan (hadd : s.ProcessAdded p parent s')
    (h : PsInvariant idle sys noDebt s) : ∃ a, ¬ s.systemPtes.Marked a ∧ s'.Orphaned sys a := by
  obtain ⟨-, hkeep, -, -, table, hunmarked, hholds, hdirectory, hapart⟩ := hadd.handsOut h.pteCount
  refine ⟨table, hunmarked, hholds, fun o ho => ?_⟩
  rcases hadd.owns ho with rfl | ⟨ho, harea⟩
  · exact hdirectory
  · rw [harea]
    exact (hapart _ (s.area_pos o) (h.pages o ho)).symm

/-- Stores that keep the shape keep orphans. -/
theorem Ps.Orphaned.of_shape (h : s.Orphaned sys a) (hshape : s.SameShape s') :
    s'.Orphaned sys a := by
  refine ⟨?_, fun o ho => ?_⟩
  · rw [hshape.ptes]
    exact h.1
  · rw [hshape.area]
    exact h.2 o ((hshape.owns o).mp ho)

/-- Creating a process keeps orphans. -/
theorem Ps.Orphaned.processAdded (h : s.Orphaned sys a) (hadd : s.ProcessAdded p parent s')
    (hcount : s.systemPtes.bitmap.BitCount = systemPteCount) : s'.Orphaned sys a := by
  obtain ⟨-, hkeep, -, hapart, -⟩ := hadd.handsOut hcount
  refine ⟨hkeep _ h.1, fun o ho => ?_⟩
  rcases hadd.owns ho with rfl | ⟨ho, harea⟩
  · exact hapart _ Nat.zero_lt_one h.1
  · rw [harea]
    exact h.2 o ho

variable [DecidableEq τ]

/-- Creating a thread keeps orphans. -/
theorem Ps.Orphaned.threadAdded (h : s.Orphaned sys a) (hadd : s.ThreadAdded t p s')
    (hp : p ∈ s.processes) (hcount : s.systemPtes.bitmap.BitCount = systemPteCount) :
    s'.Orphaned sys a := by
  obtain ⟨-, -, hkeep, hapart⟩ := mmAllocateSystemPtes_holds (by decide) hcount hadd.stack
  refine ⟨hkeep _ h.1, fun o ho => ?_⟩
  rcases hadd.owns hp ho with rfl | ⟨ho, harea⟩
  · exact hapart _ Nat.zero_lt_one h.1
  · rw [harea]
    exact h.2 o ho

/-- Cleaning up a thread keeps orphans, whatever processes go with it. -/
theorem Ps.Orphaned.threadGone (h : s.Orphaned sys a) (hgone : s.ThreadGone sys t s') :
    s'.Orphaned sys a := by
  refine ⟨hgone.holds _ h.1 h.2, fun o ho => ?_⟩
  obtain ⟨ho, harea⟩ := hgone.owns o ho
  rw [harea]
  exact h.2 o ho

/-- **No call gives an orphan back.** -/
theorem Ps.Orphaned.step (ha : m.ps.Orphaned sys a) (h : m.Inv boot idle sys) {e : PsEvent τ}
    (hen : e.Enabled boot idle m) (hrun : e.run m = .ok m') : m'.ps.Orphaned sys a := by
  cases e with
  | createProcess p t kind signalState =>
    obtain ⟨-, parent, s, hprocess, hthread, -⟩ := h.createProcess hen hrun
    refine (ha.processAdded hprocess h.ps.pteCount).threadAdded hthread ?_
      (hprocess.handsOut h.ps.pteCount).1
    rw [hprocess.processes]
    exact Finset.mem_insert_self p _
  | createThread t p signalState =>
    exact ha.threadAdded (h.createThread hen hrun).2.1 hen.2.2 h.ps.pteCount
  | exit =>
    obtain ⟨-, hps, -⟩ := h.exit hen hrun
    rw [hps]
    exact ha.of_shape (m.ps.signalled_shape m.current)
  | schedule =>
    obtain ⟨-, hps, -⟩ := h.schedule hrun
    rw [hps]
    exact ha
  | cleanUp =>
    cases hhead : (schedExited m.sched).head? with
    | none =>
      obtain ⟨m'', hrun', -, hps, -⟩ := h.cleanUp_none (List.head?_eq_none_iff.mp hhead)
      obtain rfl := Except.ok.inj (hrun'.symm.trans hrun)
      rw [hps]
      exact ha
    | some t =>
      obtain ⟨m'', hrun', -, hgone, -⟩ := h.cleanUp_some hhead (h.cleanUp_guards hhead hrun)
      obtain rfl := Except.ok.inj (hrun'.symm.trans hrun)
      exact ha.threadGone hgone

/-! ## Runs -/

/-- **Creation and destruction are neutral**: of the resources of the process manager, the bitmap of
the system PTEs, the PID table and the protection of the parent are the same again. -/
structure ResourceNeutral (parent : UInt32) (s s' : Ps τ) : Prop where
  systemPtes : s'.systemPtes.bitmap = s.systemPtes.bitmap
  pids : s'.PidTable = s.PidTable
  rundown : (s'.eprocess parent).RundownProtect = (s.eprocess parent).RundownProtect

/-- **A creation leaves a page behind** that was not marked before, in every later state. -/
theorem psSystem_orphan {tr : List (PsEvent τ × PsMachine τ)} {kind : ProcessKind}
    {signalState : Int} (h : (psSystem boot idle sys).Run tr m')
    (hmem : (.createProcess p t kind signalState, m) ∈ tr) :
    ∃ a, ¬ m.ps.systemPtes.Marked a ∧ m'.ps.Orphaned sys a := by
  induction h with
  | start hinit => exact absurd hmem List.not_mem_nil
  | @step tr m₁ l m' hrun hstep ih =>
    obtain ⟨e, m₀⟩ := l
    obtain ⟨hm₀, hen, he⟩ := hstep
    obtain rfl : m₀ = m₁ := hm₀
    have hinv := psSystem_inv hrun
    rcases List.mem_cons.mp hmem with heq | hmem
    · -- the creation itself
      obtain ⟨rfl, rfl⟩ := Prod.mk.inj heq
      obtain ⟨-, parent, s, hprocess, hthread, -⟩ := hinv.createProcess hen he
      obtain ⟨a, hunmarked, horphan⟩ := hprocess.orphan hinv.ps
      refine ⟨a, hunmarked, horphan.threadAdded hthread ?_ (hprocess.handsOut hinv.ps.pteCount).1⟩
      rw [hprocess.processes]
      exact Finset.mem_insert_self p _
    · obtain ⟨a, hunmarked, horphan⟩ := ih hmem
      exact ⟨a, hunmarked, horphan.step hinv hen he⟩

/-- **The creation of a process is never undone**: after it, and so after the process has been
destroyed as well, the resources are never what they were before. -/
theorem creation_not_neutral {tr : List (PsEvent τ × PsMachine τ)} {kind : ProcessKind}
    {signalState : Int} (h : (psSystem boot idle sys).Run tr m')
    (hmem : (.createProcess p t kind signalState, m) ∈ tr) (parent : UInt32) :
    ¬ ResourceNeutral parent m.ps m'.ps := by
  intro hneutral
  obtain ⟨a, hunmarked, horphan⟩ := psSystem_orphan h hmem
  obtain ⟨i, ha, hset⟩ := horphan.marked
  refine hunmarked ⟨i, ha, ?_⟩
  rw [← hneutral.systemPtes]
  exact hset

/-- A process comes and goes. -/
theorem creation_not_neutral_one : ∃ tr m m', (psSystem (0 : Fin 4) 1 4).Run tr m'
    ∧ (.createProcess 8 2 (.load true 16) 0, m) ∈ tr ∧ 8 ∉ m'.ps.processes
    ∧ ¬ ResourceNeutral 4 m.ps m'.ps := by
  obtain ⟨tr, m', hrun, hobserved⟩ := firstThreads_play
    [.createProcess 8 2 (.load true 16) 0, .schedule, .exit, .cleanUp]
    (fun tr m => decide (8 ∉ m.ps.processes)
      && tr.any fun l => decide (l.1 = .createProcess 8 2 (.load true 16) 0)) (by decide +kernel)
  obtain ⟨hgone, hany⟩ := Bool.and_eq_true_iff.mp hobserved
  obtain ⟨⟨e, m⟩, hmem, he⟩ := List.any_eq_true.mp hany
  obtain rfl : e = .createProcess 8 2 (.load true 16) 0 := of_decide_eq_true he
  exact ⟨tr, m, m', hrun, hmem, of_decide_eq_true hgone, creation_not_neutral hrun hmem 4⟩

/-- **The pages of the handle table and of the bitmap stay behind** when the process is destroyed. -/
theorem creation_neutral_fails : ¬ ∀ (tr : List (PsEvent (Fin 4) × PsMachine (Fin 4)))
    (m m' : PsMachine (Fin 4)), (psSystem 0 1 4).Run tr m' →
      (.createProcess 8 2 (.load true 16) 0, m) ∈ tr → 8 ∉ m'.ps.processes →
      ResourceNeutral 4 m.ps m'.ps := by
  intro hall
  obtain ⟨tr, m', hrun, hobserved⟩ := firstThreads_play
    [.createProcess 8 2 (.load true 16) 0, .schedule, .exit, .cleanUp]
    (fun tr m => decide (8 ∉ m.ps.processes) && m.ps.systemPtes.bitmap.bits 10
      && tr.any fun l => decide (l.1 = .createProcess 8 2 (.load true 16) 0)
        && !l.2.ps.systemPtes.bitmap.bits 10) (by decide +kernel)
  obtain ⟨hgone, hany⟩ := Bool.and_eq_true_iff.mp hobserved
  obtain ⟨hgone, hset⟩ := Bool.and_eq_true_iff.mp hgone
  obtain ⟨⟨e, m⟩, hmem, he⟩ := List.any_eq_true.mp hany
  obtain ⟨he, hclear⟩ := Bool.and_eq_true_iff.mp he
  obtain rfl : e = .createProcess 8 2 (.load true 16) 0 := of_decide_eq_true he
  have hneutral := hall tr m m' hrun hmem (of_decide_eq_true hgone)
  rw [hneutral.systemPtes] at hset
  rw [hset] at hclear
  cases hclear

end KaushOS
