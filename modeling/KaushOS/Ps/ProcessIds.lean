import KaushOS.Ps.ExitProcess

/-! # PIDs (`PsGetProcessFromPID` and `KExitProcess` in `kern/ps/process.c`)

The PID of a process is the index of its entry in the PID table. `PsGetProcessFromPID` finds the process
there and returns `NULL` all the same.

* **`psGetProcessFromPID`, `kExitProcess`** — the routines.
* **`pspExitProcess_state`** — ending a process terminates that one only.
* **`pid_lookup_never`** — PIDs are distinct, and the routines find no process by them. -/

namespace KaushOS

open CircularList Transition

variable {τ : Type} [DecidableEq τ]

/-! ## The routines -/

/-- `ObLookupObjectByHandle(Handle, HandleTable, Object)`: it never fails. -/
def obLookupObjectByHandle (handle : Fin EX_MAX_HANDLE) (table : HandlePage UInt32) :
    KSTATUS × HANDLE_TABLE_ENTRY UInt32 :=
  (.STATUS_SUCCESS, table handle)

omit [DecidableEq τ] in
/-- **`PsGetProcessFromPID(ProcessId)`**: the variable `Process` is filled, but not returned. -/
def psGetProcessFromPID (processId : Fin EX_MAX_HANDLE) (s : Ps τ) : Kernel UInt32 := do
  let (status, _process) := obLookupObjectByHandle processId s.PidTable
  assert (K_SUCCESS status) "0"
  return NULL

/-- `TargetProcess->Parent`: behind `NULL` there is no process. `nullParent` is what is read there, if the
first page is mapped at all. -/
def parentOf (nullParent : Option UInt32) (target : UInt32) (s : Ps τ) : Kernel UInt32 :=
  if target = NULL then
    match nullParent with
    | none => .error .nullPointer
    | some parent => .ok parent
  else .ok (s.eprocess target).Parent

/-- `KExitProcess`, up to the call of `PspExitProcess`: the process that is to end. -/
def exitTarget (nullParent : Option UInt32) (processId : Fin EX_MAX_HANDLE) (m : PsMachine τ) :
    Kernel UInt32 :=
  if processId.val = 0 then .ok m.currentProcess
  else if (m.ps.eprocess m.currentProcess).UniqueProcessId = processId then .ok m.currentProcess
  else do
    let target ← psGetProcessFromPID processId m.ps
    let parent ← parentOf nullParent target m.ps
    assert (parent = m.currentProcess) "0"
    return target

/-- **`KExitProcess(ProcessId, ExitStatus)`**; the result tells whether `PspExitProcess` returns. -/
def kExitProcess (nullParent : Option UInt32) (exitedThread : Nat → Option τ)
    (processId : Fin EX_MAX_HANDLE) (x : ExitMachine τ) : Kernel (Bool × ExitMachine τ) := do
  let target ← exitTarget nullParent processId x.machine
  pspExitProcess exitedThread target x

/-- **Exactly the process `p` is terminated.** -/
def ExitsExactly (p : UInt32) (x : ExitMachine τ) (r : Kernel (Bool × ExitMachine τ)) : Prop :=
  ∃ returned x', r = .ok (returned, x') ∧ x'.State p = .TERMINATED
    ∧ ∀ q, q ≠ p → x'.State q = x.State q

/-! ## What is looked up -/

omit [DecidableEq τ] in
/-- **The result of a lookup** is `NULL`, whatever the PID table contains. -/
theorem psGetProcessFromPID_eq (processId : Fin EX_MAX_HANDLE) (s : Ps τ) :
    psGetProcessFromPID processId s = .ok NULL := by
  have hsuccess : K_SUCCESS (obLookupObjectByHandle processId s.PidTable).1 := rfl
  simp only [psGetProcessFromPID, assert_of_true hsuccess]
  rfl

omit [DecidableEq τ] in
/-- **The process that is to end** is the current one, or `NULL`. -/
theorem exitTarget_cases {nullParent : Option UInt32} {processId : Fin EX_MAX_HANDLE}
    {m : PsMachine τ} {target : UInt32} (hrun : exitTarget nullParent processId m = .ok target) :
    target = m.currentProcess ∨ target = NULL := by
  unfold exitTarget at hrun
  split at hrun
  · cases hrun
    exact Or.inl rfl
  · split at hrun
    · cases hrun
      exact Or.inl rfl
    · rw [psGetProcessFromPID_eq, kernel_ok_bind] at hrun
      obtain ⟨parent, -, hrun⟩ := kernel_bind_eq_ok.mp hrun
      obtain ⟨_, -, hrun⟩ := kernel_bind_eq_ok.mp hrun
      cases hrun
      exact Or.inr rfl

/-! ## What is terminated -/

section State

variable {x x' : ExitMachine τ} {p : UInt32} {thread : Option τ} {returned : Bool}

/-- A call of `PsExitThread` does not end a process. -/
theorem psExitThreadOf_state (hrun : psExitThreadOf thread x = .ok (returned, x')) :
    x'.State = x.State := by
  unfold psExitThreadOf at hrun
  dsimp only at hrun
  split at hrun
  · obtain ⟨_, -, hrun⟩ := kernel_bind_eq_ok.mp hrun
    cases hrun
    rfl
  · obtain ⟨_, -, hrun⟩ := kernel_bind_eq_ok.mp hrun
    obtain ⟨m, -, hrun⟩ := kernel_bind_eq_ok.mp hrun
    obtain ⟨m', -, hrun⟩ := kernel_bind_eq_ok.mp hrun
    obtain ⟨ps, -, hrun⟩ := kernel_bind_eq_ok.mp hrun
    cases hrun
    unfold ExitMachine.recordRemoval
    dsimp only
    split
    · rfl
    · rfl

/-- The loop does not end a process. -/
theorem exitThreads_state {exitedThread : Nat → Option τ} {rounds round : Nat}
    {lastThread : Option τ} {result : Option (Option τ)}
    (hrun : exitThreads p exitedThread rounds round lastThread x = .ok (result, x')) :
    x'.State = x.State := by
  induction rounds generalizing round lastThread x with
  | zero =>
    unfold exitThreads at hrun
    split at hrun
    · cases hrun
      rfl
    · cases hrun
  | succ rounds ih =>
    unfold exitThreads at hrun
    split at hrun
    · cases hrun
      rfl
    · dsimp only at hrun
      split at hrun
      · obtain ⟨⟨returned, x₁⟩, hexit, hrun⟩ := kernel_bind_eq_ok.mp hrun
        have hstate := psExitThreadOf_state hexit
        cases returned with
        | true => exact (ih hrun).trans hstate
        | false =>
          cases hrun
          exact hstate
      · have hstate := ih hrun
        exact hstate

/-- What follows the loop does not end a process. -/
theorem endExit_state (hrun : endExit p x = .ok x') : x'.State = x.State := by
  obtain ⟨lock, -, hrun⟩ := kernel_bind_eq_ok.mp hrun
  obtain ⟨x₁, hremove, hrun⟩ := kernel_bind_eq_ok.mp hrun
  obtain ⟨ps, -, hrun⟩ := kernel_bind_eq_ok.mp hrun
  cases hrun
  unfold removeInserted at hremove
  split at hremove
  · obtain ⟨x₂, hremove, hset⟩ := kernel_bind_eq_ok.mp hremove
    obtain ⟨_, -, hremove⟩ := kernel_bind_eq_ok.mp hremove
    cases hremove
    cases hset
    rfl
  · cases hremove
    rfl

/-- **Ending a process** terminates that one only. -/
theorem pspExitProcess_state {exitedThread : Nat → Option τ}
    (hrun : pspExitProcess exitedThread p x = .ok (returned, x')) :
    x'.State = Function.update x.State p .TERMINATED := by
  obtain ⟨x₁, hbegin, hrun⟩ := kernel_bind_eq_ok.mp hrun
  obtain ⟨⟨last, x₂⟩, hloop, hrun⟩ := kernel_bind_eq_ok.mp hrun
  have hstate : x₂.State = Function.update x.State p .TERMINATED := by
    refine (exitThreads_state hloop).trans ?_
    obtain ⟨_, -, hbegin⟩ := kernel_bind_eq_ok.mp hbegin
    obtain ⟨_, -, hbegin⟩ := kernel_bind_eq_ok.mp hbegin
    obtain ⟨_, -, hbegin⟩ := kernel_bind_eq_ok.mp hbegin
    obtain ⟨_, -, hbegin⟩ := kernel_bind_eq_ok.mp hbegin
    obtain ⟨_, -, hbegin⟩ := kernel_bind_eq_ok.mp hbegin
    obtain ⟨x₃, hrelease, hbegin⟩ := kernel_bind_eq_ok.mp hbegin
    obtain ⟨header, -, hbegin⟩ := kernel_bind_eq_ok.mp hbegin
    obtain ⟨lock, -, hbegin⟩ := kernel_bind_eq_ok.mp hbegin
    obtain ⟨_, -, hrelease⟩ := kernel_bind_eq_ok.mp hrelease
    cases hrelease
    cases hbegin
    rfl
  rw [← hstate]
  dsimp only at hrun
  cases last with
  | none =>
    cases hrun
    rfl
  | some lastThread =>
    obtain ⟨x₃, hend, hrun⟩ := kernel_bind_eq_ok.mp hrun
    cases lastThread with
    | none =>
      cases hrun
      exact endExit_state hend
    | some t =>
      obtain ⟨_, -, hexit⟩ := kernel_bind_eq_ok.mp hrun
      exact (psExitThreadOf_state hexit).trans (endExit_state hend)

end State

/-! ## Lookups in every run -/

section Lookup

variable {boot idle : τ} {sys p : UInt32} {m : PsMachine τ} {tr : List (PsEvent τ × PsMachine τ)}

/-- **PIDs are distinct, but lead to no process.** The lookup of the PID of a process does not find the
process; and when its parent ends it by its PID, it is not what ends, whatever is read behind `NULL`. -/
theorem pid_lookup_never (h : (psSystem boot idle sys).Run tr m) (hp : p ∈ m.ps.processes) :
    psGetProcessFromPID (m.ps.eprocess p).UniqueProcessId m.ps ≠ .ok p
      ∧ (∀ q ∈ m.ps.processes,
        (m.ps.eprocess q).UniqueProcessId = (m.ps.eprocess p).UniqueProcessId → q = p)
      ∧ ∀ (nullParent : Option UInt32) (exitedThread : Nat → Option τ) (x : ExitMachine τ),
        x.machine = m → x.Active p → (m.ps.eprocess p).Parent = m.currentProcess →
        ¬ ExitsExactly p x
          (kExitProcess nullParent exitedThread (m.ps.eprocess p).UniqueProcessId x) := by
  have hinv := psSystem_inv h
  have hlisted := psSystem_listed h
  have hnull : p ≠ NULL := by
    rintro rfl
    exact hinv.ps.notNull hp
  refine ⟨?_, fun q hq heq => ?_, ?_⟩
  · rw [psGetProcessFromPID_eq]
    exact fun heq => hnull (Except.ok.inj heq).symm
  · have hentry := hlisted.pid q hq
    rw [heq, hlisted.pid p hp] at hentry
    exact (HANDLE_TABLE_ENTRY.object.inj hentry).symm
  · rintro nullParent exitedThread x rfl hactive hparent ⟨returned, x', hrun, hterminated, -⟩
    obtain ⟨target, htarget, hexit⟩ := kernel_bind_eq_ok.mp hrun
    have hother : p ≠ target := by
      rintro rfl
      rcases exitTarget_cases htarget with heq | heq
      · exact hlisted.parent p hp (hparent.trans heq.symm)
      · exact hnull heq
    rw [pspExitProcess_state hexit, Function.update_of_ne hother, hactive.state] at hterminated
    cases hterminated

end Lookup

/-- A process that the first thread of the system has created. -/
theorem pid_lookup_never_child : ∃ tr m, (psSystem (0 : Fin 4) 1 4).Run tr m
    ∧ psGetProcessFromPID (m.ps.eprocess 8).UniqueProcessId m.ps ≠ .ok 8
    ∧ ¬ ExitsExactly 8 (activeProcesses m)
      (kExitProcess none (fun _ => none) (m.ps.eprocess 8).UniqueProcessId (activeProcesses m)) := by
  obtain ⟨tr, m, hrun, hobserved⟩ := firstThreads_play [.createProcess 8 2 (.load true 16) 0]
    (fun _ m => decide (8 ∈ m.ps.processes) && decide ((m.ps.eprocess 8).Parent = m.currentProcess))
    (by decide +kernel)
  obtain ⟨hp, hparent⟩ := Bool.and_eq_true_iff.mp hobserved
  have hnever := pid_lookup_never hrun (of_decide_eq_true hp)
  exact ⟨tr, m, hrun, hnever.1, hnever.2.2 none (fun _ => none) (activeProcesses m) rfl
    (activeProcesses_active m) (of_decide_eq_true hparent)⟩

/-- **The system process** is not found by its PID. -/
theorem pid_lookup_fails : ¬ ∀ (tr : List (PsEvent (Fin 4) × PsMachine (Fin 4)))
    (m : PsMachine (Fin 4)), (psSystem 0 1 4).Run tr m → ∀ p ∈ m.ps.processes,
      psGetProcessFromPID (m.ps.eprocess p).UniqueProcessId m.ps = .ok p := by
  intro hall
  have hfound := hall [] firstThreads (System.Run.start firstThreads_start) 4
    (Finset.mem_singleton_self 4)
  rw [psGetProcessFromPID_eq] at hfound
  exact absurd (Except.ok.inj hfound) (by decide)

end KaushOS
