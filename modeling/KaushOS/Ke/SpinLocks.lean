import KaushOS.Ke.LockRuns

/-! # Spin locks on several processors (`kern/ke/locks.c`)

`LockRuns.lean` has one processor, on which an acquisition is as good as one step. Here any number of
threads, each on a processor of its own, go through the routines for one lock step by step.

* **`keInitializeSpinLock`** — the initialiser, on memory of any contents.
* **`SpinMachine.step`** — the single steps: assertions, interlocked exchanges and stores.
* **`spinSystem`** — all interleavings, from a lock of any contents.
* **`SpinMachine.Exclusive`** — whoever has reset the lock word is alone.

What `KeRaiseIrql` and `KeLowerIrql` do to the interrupt mask is in `Irql.lean`. -/

namespace KaushOS

open Transition

/-! ## The initialiser -/

/-- Memory, word by word, at the numbers of the words. -/
abbrev WordMemory := Nat → UInt32

/-- `sizeof(KSPIN_LOCK)`, in words. -/
def KSPIN_LOCK_WORDS : Nat := 3

/-- `memset(v, 0, n)` for `n` words. -/
def clearWords (v : Nat) : Nat → WordMemory → WordMemory
  | 0, m => m
  | n + 1, m => clearWords (v + 1) n (Function.update m v 0)

/-- `KeInitializeSpinLock(SpinLock)`, whose parameter lies on the stack at `parameter`: what is
cleared begins at the parameter, and not at the lock it points to. -/
def keInitializeSpinLock (spinLock parameter : Nat) (m : WordMemory) : WordMemory :=
  clearWords parameter KSPIN_LOCK_WORDS (Function.update m parameter (UInt32.ofNat (4 * spinLock)))

/-- The lock that the words from `spinLock` on make up; threads are named by their addresses. -/
def spinLockAt (m : WordMemory) (spinLock : Nat) : KSPIN_LOCK UInt32 where
  Lock := (m spinLock).toNat
  Thread := if m (spinLock + 1) = 0 then none else some (m (spinLock + 1))
  OldIrql := (m (spinLock + 2)).toNat

/-- The words that `memset` clears. -/
theorem clearWords_apply (v n : Nat) (m : WordMemory) (a : Nat) :
    clearWords v n m a = if v ≤ a ∧ a < v + n then 0 else m a := by
  induction n generalizing v m with
  | zero =>
    rw [clearWords, if_neg]
    omega
  | succ n ih =>
    rw [clearWords, ih]
    by_cases ha : a = v
    · subst ha
      rw [Function.update_self, ite_self, if_pos]
      omega
    · rw [Function.update_of_ne ha]
      by_cases hin : v + 1 ≤ a ∧ a < v + 1 + n
      · rw [if_pos hin, if_pos ⟨by omega, by omega⟩]
      · rw [if_neg hin, if_neg]
        omega

/-- Whether the initialiser clears a word. -/
def Cleared (parameter a : Nat) : Prop := parameter ≤ a ∧ a < parameter + KSPIN_LOCK_WORDS

/-- **What the initialiser does**: the parameter and two words above it are cleared. -/
theorem keInitializeSpinLock_apply (spinLock parameter : Nat) (m : WordMemory) (a : Nat) :
    (Cleared parameter a → keInitializeSpinLock spinLock parameter m a = 0)
    ∧ (¬ Cleared parameter a → keInitializeSpinLock spinLock parameter m a = m a) := by
  constructor
  · intro h
    rw [keInitializeSpinLock, clearWords_apply]
    exact if_pos h
  · intro h
    have hne : a ≠ parameter := by
      rintro rfl
      exact h ⟨Nat.le_refl a, Nat.lt_add_of_pos_right (Nat.succ_pos 2)⟩
    rw [keInitializeSpinLock, clearWords_apply, Function.update_of_ne hne]
    exact if_neg h

/-! ## The steps of a thread -/

/-- The two pairs of routines. -/
inductive SpinPair
  /-- `KeAcquireSpinLock` and `KeReleaseSpinLock`. -/
  | plain
  /-- `KeAcquireSpinLockAtDpcLevel` and `KeReleaseSpinLockFromDpcLevel`. -/
  | atDpcLevel
  deriving DecidableEq, Repr

/-- **Where a thread stands** in its use of the lock. -/
inductive SpinPoint
  | outside
  /-- In the acquisition, in front of the exchange. -/
  | spinning
  /-- The exchange has found 0; the store to `OldIrql` is next. -/
  | storeIrql
  /-- The store to `Thread` is next. -/
  | storeThread
  /-- The acquisition has returned. -/
  | holding
  /-- In the release, in front of the exchange. -/
  | resetting
  /-- The store of 0 to `OldIrql` is next. -/
  | clearIrql
  /-- The store of `NULL` to `Thread` is next. -/
  | clearThread
  deriving DecidableEq, Repr

/-- **Between the exchange of an acquisition that found 0 and the exchange of the release.** -/
def SpinPoint.Holds : SpinPoint → Prop
  | .storeIrql | .storeThread | .holding | .resetting => True
  | .outside | .spinning | .clearIrql | .clearThread => False

/-- A thread: where it stands, the pair of routines it uses, the IRQL of its processor, and its local
variable `OldIrql`. -/
structure SpinThread where
  point : SpinPoint
  pair : SpinPair
  irql : Nat
  OldIrql : Nat
  deriving DecidableEq, Repr

/-- What a thread does next, where it has a choice. -/
inductive SpinAction
  /-- Its IRQL changes for other reasons. -/
  | irql (level : Nat)
  /-- It calls the routine that acquires. -/
  | acquire (pair : SpinPair)
  /-- It calls the routine that releases. -/
  | release
  /-- It goes on in the routine. -/
  | go
  deriving DecidableEq, Repr

/-- The lock and the threads that use it; `taken` tells whether anybody has ever got it. -/
structure SpinMachine (τ : Type) where
  lock : KSPIN_LOCK τ
  thread : τ → SpinThread
  taken : Bool

variable {τ : Type} [DecidableEq τ]

/-- The assertions of the routine that acquires. -/
def SpinPair.acquireCheck (irql : Nat) (current : τ) (l : KSPIN_LOCK τ) : SpinPair → Kernel Unit
  | .plain => keAcquireSpinLockCheck irql current l
  | .atDpcLevel => do
    assert (irql ≥ DISPATCH_LEVEL) "DIrql >= DISPATCH_LEVEL"
    if l.Thread ≠ none then
      assert (l.Thread ≠ some current) "SpinLock->Thread != DThread"

/-- The assertions of the routine that releases, up to the exchange; `dispatcher` tells whether the
lock is `DispatcherDataBaseLock`. -/
def SpinPair.releaseCheck (dispatcher : Bool) (irql oldIrql : Nat) (current : τ) (l : KSPIN_LOCK τ) :
    SpinPair → Kernel Unit
  | .plain => do
    assert (irql = DISPATCH_LEVEL) "DIRQL == DISPATCH_LEVEL"
    if dispatcher = false then
      assert (l.OldIrql = oldIrql) "SpinLock->OldIrql == OldIrql"
      assert (l.Thread = some current) "SpinLock->Thread == DThread"
  | .atDpcLevel => do
    assert (irql ≥ DISPATCH_LEVEL) "DIrql >= DISPATCH_LEVEL"
    assert (l.Thread = some current) "SpinLock->Thread == DThread"

/-- The IRQL in the routines. -/
def SpinPair.raised (irql : Nat) : SpinPair → Nat
  | .plain => DISPATCH_LEVEL
  | .atDpcLevel => irql

/-- The IRQL that an acquisition stores in the lock. -/
def SpinPair.storedIrql (oldIrql : Nat) : SpinPair → Nat
  | .plain => oldIrql
  | .atDpcLevel => DISPATCH_LEVEL

/-- The IRQL after the release. -/
def SpinPair.lowered (irql oldIrql : Nat) : SpinPair → Nat
  | .plain => oldIrql
  | .atDpcLevel => irql

namespace SpinMachine

/-- Store to the lock and to one thread. -/
def put (m : SpinMachine τ) (t : τ) (l : KSPIN_LOCK τ) (r : SpinThread) : SpinMachine τ :=
  { m with lock := l, thread := Function.update m.thread t r }

/-- **A step inside a routine.** -/
def go (m : SpinMachine τ) (t : τ) : Kernel (SpinMachine τ) :=
  let l := m.lock
  let r := m.thread t
  match r.point with
  | .spinning =>
    -- `Result = InterlockedExchange(&SpinLock->Lock, 1)`, until `Result` is 0
    if l.Lock = 0 then
      .ok { m.put t { l with Lock := 1 } { r with point := .storeIrql } with taken := true }
    else .ok (m.put t { l with Lock := 1 } r)
  | .storeIrql =>
    .ok (m.put t { l with OldIrql := r.pair.storedIrql r.OldIrql } { r with point := .storeThread })
  | .storeThread => .ok (m.put t { l with Thread := some t } { r with point := .holding })
  | .resetting => do
    -- `Result = InterlockedExchange(&SpinLock->Lock, 0)`
    assert (l.Lock = 1) "Result == 1"
    return m.put t { l with Lock := 0 } { r with point := .clearIrql }
  | .clearIrql => .ok (m.put t { l with OldIrql := 0 } { r with point := .clearThread })
  | .clearThread =>
    .ok (m.put t { l with Thread := none }
      { r with point := .outside, irql := r.pair.lowered r.irql r.OldIrql })
  | .outside | .holding => .ok m

/-- **A step of a thread.** -/
def step (dispatcher : Bool) (m : SpinMachine τ) (t : τ) : SpinAction → Kernel (SpinMachine τ)
  | .irql level => .ok (m.put t m.lock { m.thread t with irql := level })
  | .acquire pair => do
    let irql := (m.thread t).irql
    pair.acquireCheck irql t m.lock
    return m.put t m.lock
      { point := .spinning, pair, irql := pair.raised irql, OldIrql := irql }
  | .release => do
    let r := m.thread t
    r.pair.releaseCheck dispatcher r.irql r.OldIrql t m.lock
    return m.put t m.lock { r with point := .resetting }
  | .go => m.go t

/-- **Which steps a thread takes**: it does not acquire a lock that it holds, and releases it with
the routine of the same pair. -/
def Enabled (m : SpinMachine τ) (t : τ) : SpinAction → Prop
  | .irql _ => (m.thread t).point = .outside ∨ (m.thread t).point = .holding
  | .acquire _ => (m.thread t).point = .outside
  | .release => (m.thread t).point = .holding
  | .go => (m.thread t).point ≠ .outside ∧ (m.thread t).point ≠ .holding

end SpinMachine

/-- **The system of threads that use one lock**, which has the contents `l` at the start. -/
def spinSystem (threads : Set τ) (dispatcher : Bool) (l : KSPIN_LOCK τ) :
    System (τ × SpinAction) (SpinMachine τ) where
  init m := m.lock = l ∧ m.taken = false ∧ ∀ t, (m.thread t).point = .outside
  step _ m e m' := e.1 ∈ threads ∧ m.Enabled e.1 e.2 ∧ m.step dispatcher e.1 e.2 = .ok m'

/-! ## What a step can do -/

section Steps

variable {threads : Set τ} {dispatcher : Bool} {l : KSPIN_LOCK τ} {m m' : SpinMachine τ} {t u : τ}
  {a : SpinAction} {tr : List (τ × SpinAction)}

/-- The lock word is 1 while anybody holds the lock, and only one thread does. -/
structure SpinMachine.Exclusive (m : SpinMachine τ) : Prop where
  unique : ∀ t u, (m.thread t).point.Holds → (m.thread u).point.Holds → t = u
  locked : ∀ t, (m.thread t).point.Holds → m.lock.Lock = 1

@[simp] theorem SpinMachine.put_lock (m : SpinMachine τ) (t : τ) (l : KSPIN_LOCK τ)
    (r : SpinThread) : (m.put t l r).lock = l := rfl

@[simp] theorem SpinMachine.put_taken (m : SpinMachine τ) (t : τ) (l : KSPIN_LOCK τ)
    (r : SpinThread) : (m.put t l r).taken = m.taken := rfl

@[simp] theorem SpinMachine.put_self (m : SpinMachine τ) (t : τ) (l : KSPIN_LOCK τ)
    (r : SpinThread) : (m.put t l r).thread t = r := by
  simp [SpinMachine.put]

theorem SpinMachine.put_of_ne (m : SpinMachine τ) (l : KSPIN_LOCK τ) (r : SpinThread)
    (h : u ≠ t) : (m.put t l r).thread u = m.thread u := by
  simp [SpinMachine.put, h]

/-- **The steps as far as exclusion goes**: a thread gets the lock, or gives it up, or neither; and
the lock word does not change but with these, or from a value that is not 0 to 1. -/
inductive SpinChange (m m' : SpinMachine τ) (t : τ) : Prop
  | got (hfree : m.lock.Lock = 0) (hword : m'.lock.Lock = 1) (htaken : m'.taken = true)
  | gave (hheld : (m.thread t).point.Holds) (hword : m'.lock.Lock = 0)
      (hout : ¬ (m'.thread t).point.Holds)
  | kept (hword : m'.lock.Lock = m.lock.Lock ∨ m.lock.Lock ≠ 0 ∧ m'.lock.Lock = 1)
      (hpoint : (m'.thread t).point.Holds ↔ (m.thread t).point.Holds)
      (htaken : m'.taken = m.taken)

/-- A step changes no other thread. -/
theorem SpinMachine.step_of_ne (hrun : m.step dispatcher t a = .ok m') (hu : u ≠ t) :
    m'.thread u = m.thread u := by
  cases a with
  | irql level =>
    cases hrun
    exact m.put_of_ne _ _ hu
  | acquire pair =>
    obtain ⟨_, -, hrun⟩ := kernel_bind_eq_ok.mp hrun
    cases hrun
    exact m.put_of_ne _ _ hu
  | release =>
    obtain ⟨_, -, hrun⟩ := kernel_bind_eq_ok.mp hrun
    cases hrun
    exact m.put_of_ne _ _ hu
  | go =>
    have hgo : m.go t = .ok m' := hrun
    unfold SpinMachine.go at hgo
    cases hpoint : (m.thread t).point with
    | outside | holding =>
      simp only [hpoint] at hgo
      cases hgo
      rfl
    | spinning =>
      simp only [hpoint] at hgo
      split at hgo
      · cases hgo
        exact m.put_of_ne { m.lock with Lock := 1 } _ hu
      · cases hgo
        exact m.put_of_ne _ _ hu
    | resetting =>
      simp only [hpoint] at hgo
      obtain ⟨_, -, hgo⟩ := kernel_bind_eq_ok.mp hgo
      cases hgo
      exact m.put_of_ne _ _ hu
    | storeIrql | storeThread | clearIrql | clearThread =>
      simp only [hpoint] at hgo
      cases hgo
      exact m.put_of_ne _ _ hu

/-- **Every step is a change of the three kinds.** -/
theorem SpinMachine.step_change (hen : m.Enabled t a) (hrun : m.step dispatcher t a = .ok m') :
    SpinChange m m' t := by
  cases a with
  | irql level =>
    cases hrun
    exact .kept (Or.inl rfl) (by rw [m.put_self]) rfl
  | acquire pair =>
    obtain ⟨_, -, hrun⟩ := kernel_bind_eq_ok.mp hrun
    cases hrun
    have hout : (m.thread t).point = .outside := hen
    exact .kept (Or.inl rfl) (by rw [m.put_self, hout]; exact Iff.rfl) rfl
  | release =>
    obtain ⟨_, -, hrun⟩ := kernel_bind_eq_ok.mp hrun
    cases hrun
    have hhold : (m.thread t).point = .holding := hen
    exact .kept (Or.inl rfl) (by rw [m.put_self, hhold]; exact Iff.rfl) rfl
  | go =>
    have hgo : m.go t = .ok m' := hrun
    unfold SpinMachine.go at hgo
    cases hpoint : (m.thread t).point with
    | outside => exact absurd hpoint hen.1
    | holding => exact absurd hpoint hen.2
    | spinning =>
      simp only [hpoint] at hgo
      split at hgo
      · rename_i hfree
        cases hgo
        exact .got hfree rfl rfl
      · rename_i hword
        cases hgo
        exact .kept (Or.inr ⟨hword, rfl⟩) (by rw [m.put_self]) rfl
    | storeIrql | storeThread =>
      simp only [hpoint] at hgo
      cases hgo
      exact .kept (Or.inl rfl) (by rw [m.put_self, hpoint]; exact Iff.rfl) rfl
    | resetting =>
      simp only [hpoint] at hgo
      obtain ⟨_, -, hgo⟩ := kernel_bind_eq_ok.mp hgo
      cases hgo
      exact .gave (by rw [hpoint]; exact trivial) rfl (by rw [m.put_self]; exact id)
    | clearIrql | clearThread =>
      simp only [hpoint] at hgo
      cases hgo
      exact .kept (Or.inl rfl) (by rw [m.put_self, hpoint]; exact Iff.rfl) rfl

/-- **Every step keeps the exclusion.** -/
theorem SpinMachine.Exclusive.step (h : m.Exclusive) (hen : m.Enabled t a)
    (hrun : m.step dispatcher t a = .ok m') : m'.Exclusive := by
  have hother := fun u (hu : u ≠ t) => SpinMachine.step_of_ne hrun hu
  cases SpinMachine.step_change hen hrun with
  | got hfree hword _ =>
    -- nobody held the lock, so its new holder is alone
    have hnone : ∀ u, u ≠ t → ¬ (m'.thread u).point.Holds := by
      intro u hu hholds
      rw [hother u hu] at hholds
      have hone := h.locked u hholds
      rw [hfree] at hone
      cases hone
    refine ⟨fun u v hu hv => ?_, fun _ _ => hword⟩
    have hut : u = t := by_contra fun hne => hnone u hne hu
    have hvt : v = t := by_contra fun hne => hnone v hne hv
    rw [hut, hvt]
  | gave hheld _ hout =>
    have hnone : ∀ u, ¬ (m'.thread u).point.Holds := by
      intro u hholds
      by_cases hu : u = t
      · exact hout (hu ▸ hholds)
      · rw [hother u hu] at hholds
        exact hu (h.unique u t hholds hheld)
    exact ⟨fun u _ hu => absurd hu (hnone u), fun u hu => absurd hu (hnone u)⟩
  | kept hword hpoint _ =>
    have hback : ∀ u, (m'.thread u).point.Holds → (m.thread u).point.Holds := by
      intro u hholds
      by_cases hu : u = t
      · subst hu
        exact hpoint.mp hholds
      · rwa [hother u hu] at hholds
    refine ⟨fun u v hu hv => h.unique u v (hback u hu) (hback v hv), fun u hu => ?_⟩
    have hone := h.locked u (hback u hu)
    rcases hword with hword | ⟨-, hword⟩
    · rw [hword, hone]
    · exact hword

/-- **Exclusion along runs**, from a lock of any contents. -/
theorem spinSystem_exclusive (h : (spinSystem threads dispatcher l).Run tr m) : m.Exclusive := by
  refine h.invariant (I := fun _ m => m.Exclusive) ?_ ?_
  · rintro m ⟨-, -, hout⟩
    have hnone : ∀ t, ¬ (m.thread t).point.Holds := by
      intro t
      rw [hout t]
      exact id
    exact ⟨fun t _ ht => absurd ht (hnone t), fun t ht => absurd ht (hnone t)⟩
  · rintro tr m ⟨t, a⟩ m' - hinv ⟨-, hen, hrun⟩
    exact hinv.step hen hrun

/-- As long as nobody has got a lock whose word is 0, it is as it was, and everybody is outside or
in front of the exchange. -/
theorem spinSystem_untaken (hfree : l.Lock = 0) (h : (spinSystem threads dispatcher l).Run tr m) :
    m.taken = false → m.lock = l
      ∧ ∀ t, (m.thread t).point = .outside ∨ (m.thread t).point = .spinning := by
  refine h.invariant (I := fun _ m => m.taken = false → m.lock = l
    ∧ ∀ t, (m.thread t).point = .outside ∨ (m.thread t).point = .spinning) ?_ ?_
  · rintro m ⟨hlock, -, hout⟩ -
    exact ⟨hlock, fun t => Or.inl (hout t)⟩
  · rintro tr m ⟨t, a⟩ m' - hinv ⟨-, hen, hrun⟩ htaken
    have hpoints : ∀ {m₁ : SpinMachine τ}, m.step dispatcher t a = .ok m₁ →
        ((m₁.thread t).point = .outside ∨ (m₁.thread t).point = .spinning) →
        (∀ u, (m.thread u).point = .outside ∨ (m.thread u).point = .spinning) →
        ∀ u, (m₁.thread u).point = .outside ∨ (m₁.thread u).point = .spinning := by
      intro m₁ hrun₁ hself hold u
      by_cases hu : u = t
      · rw [hu]
        exact hself
      · rw [SpinMachine.step_of_ne hrun₁ hu]
        exact hold u
    cases a with
    | irql level =>
      cases hrun
      obtain ⟨hlock, hold⟩ := hinv htaken
      exact ⟨hlock, hpoints rfl (by rw [m.put_self]; exact hold t) hold⟩
    | acquire pair =>
      have hrun' := hrun
      obtain ⟨_, -, hrun⟩ := kernel_bind_eq_ok.mp hrun
      cases hrun
      obtain ⟨hlock, hold⟩ := hinv htaken
      exact ⟨hlock, hpoints hrun' (by rw [m.put_self]; exact Or.inr rfl) hold⟩
    | release =>
      obtain ⟨_, -, hrun⟩ := kernel_bind_eq_ok.mp hrun
      cases hrun
      obtain ⟨-, hold⟩ := hinv htaken
      have hhold : (m.thread t).point = .holding := hen
      rcases hold t with hp | hp
      · rw [hhold] at hp
        cases hp
      · rw [hhold] at hp
        cases hp
    | go =>
      have hgo : m.go t = .ok m' := hrun
      unfold SpinMachine.go at hgo
      cases hpoint : (m.thread t).point with
      | outside => exact absurd hpoint hen.1
      | holding => exact absurd hpoint hen.2
      | spinning =>
        simp only [hpoint] at hgo
        split at hgo
        · cases hgo
          cases htaken
        · rename_i hword
          cases hgo
          rw [(hinv htaken).1] at hword
          exact absurd hfree hword
      | resetting =>
        simp only [hpoint] at hgo
        obtain ⟨_, -, hgo⟩ := kernel_bind_eq_ok.mp hgo
        cases hgo
        rcases (hinv htaken).2 t with hp | hp
        · rw [hpoint] at hp
          cases hp
        · rw [hpoint] at hp
          cases hp
      | storeIrql | storeThread | clearIrql | clearThread =>
        simp only [hpoint] at hgo
        cases hgo
        rcases (hinv htaken).2 t with hp | hp
        · rw [hpoint] at hp
          cases hp
        · rw [hpoint] at hp
          cases hp

/-- **The assertion of the release about the lock word** never fails. -/
theorem SpinMachine.Exclusive.step_ne (h : m.Exclusive) :
    m.step dispatcher t a ≠ .error (.assertion "Result == 1") := by
  intro hrun
  cases a with
  | irql level => cases hrun
  | acquire pair =>
    cases pair <;>
      simp [SpinMachine.step, SpinPair.acquireCheck, keAcquireSpinLockCheck, assert] at hrun <;>
      split_ifs at hrun <;> simp at hrun
  | release =>
    cases hpair : (m.thread t).pair <;>
      simp [SpinMachine.step, hpair, SpinPair.releaseCheck, assert] at hrun <;>
      split_ifs at hrun <;> simp at hrun
  | go =>
    have hgo : m.go t = .error (.assertion "Result == 1") := hrun
    unfold SpinMachine.go at hgo
    cases hpoint : (m.thread t).point with
    | resetting =>
      simp only [hpoint] at hgo
      rw [assert_of_true (h.locked t (by rw [hpoint]; exact trivial)), kernel_ok_bind] at hgo
      cases hgo
    | spinning =>
      simp only [hpoint] at hgo
      split at hgo
      · cases hgo
      · cases hgo
    | outside | holding | storeIrql | storeThread | clearIrql | clearThread =>
      simp only [hpoint] at hgo
      cases hgo

/-! ## When a lock works -/

/-- The IRQLs at which the routine that acquires may be called. -/
def SpinPair.AllowedAt (irql : Nat) : SpinPair → Prop
  | .plain => irql ≤ DISPATCH_LEVEL
  | .atDpcLevel => irql ≥ DISPATCH_LEVEL

/-- **A lock that works**, from the contents `l` on: as long as nobody has got it, whoever calls for
it passes the assertions, and whoever comes to the exchange gets it; it is never held twice; and the
release never finds a lock word other than 1. -/
structure SpinLockWorks (threads : Set τ) (dispatcher : Bool) (l : KSPIN_LOCK τ) : Prop where
  first : ∀ tr m, (spinSystem threads dispatcher l).Run tr m → m.taken = false → ∀ t ∈ threads,
    (∀ pair : SpinPair, (m.thread t).point = .outside → pair.AllowedAt (m.thread t).irql →
      ∃ m', m.step dispatcher t (.acquire pair) = .ok m')
    ∧ ((m.thread t).point = .spinning →
      ∃ m', m.step dispatcher t .go = .ok m' ∧ (m'.thread t).point = .storeIrql)
  exclusive : ∀ tr m, (spinSystem threads dispatcher l).Run tr m → ∀ t u,
    (m.thread t).point.Holds → (m.thread u).point.Holds → t = u
  released : ∀ tr m, (spinSystem threads dispatcher l).Run tr m → ∀ t a,
    m.step dispatcher t a ≠ .error (.assertion "Result == 1")

/-- The assertions of an acquisition, for a thread that the lock does not name. -/
theorem SpinPair.acquireCheck_ok {pair : SpinPair} {irql : Nat} (hirql : pair.AllowedAt irql)
    (hthread : l.Thread ≠ some t) : pair.acquireCheck irql t l = .ok () := by
  cases pair with
  | plain =>
    have hle : irql ≤ DISPATCH_LEVEL := hirql
    simp [SpinPair.acquireCheck, keAcquireSpinLockCheck, assert, hle, hthread, pure, Except.pure]
  | atDpcLevel =>
    have hge : irql ≥ DISPATCH_LEVEL := hirql
    simp [SpinPair.acquireCheck, assert, hge, hthread, pure, Except.pure]

/-- The assertions of an acquisition fail for the thread that the lock names. -/
theorem SpinPair.thread_of_acquireCheck {pair : SpinPair} {irql : Nat} {r : Unit}
    (hrun : pair.acquireCheck irql t l = .ok r) : l.Thread ≠ some t := by
  intro hthread
  cases pair with
  | plain =>
    obtain ⟨_, -, hrun⟩ := kernel_bind_eq_ok.mp hrun
    simp [hthread, assert] at hrun
  | atDpcLevel =>
    obtain ⟨_, -, hrun⟩ := kernel_bind_eq_ok.mp hrun
    simp [hthread, assert] at hrun

/-- A lock on which nobody has done anything yet. -/
def SpinMachine.fresh (l : KSPIN_LOCK τ) : SpinMachine τ where
  lock := l
  thread _ := ⟨.outside, .plain, DISPATCH_LEVEL, 0⟩
  taken := false

/-- A lock that works has a lock word of 0 and names no thread. -/
theorem SpinLockWorks.free (h : SpinLockWorks threads dispatcher l) (ht : t ∈ threads) :
    l.Lock = 0 ∧ l.Thread ≠ some t := by
  have hstart : (spinSystem threads dispatcher l).Run [] (SpinMachine.fresh l) :=
    .start ⟨rfl, rfl, fun _ => rfl⟩
  obtain ⟨m, hacquire⟩ :=
    (h.first _ _ hstart rfl t ht).1 .plain rfl (Nat.le_refl DISPATCH_LEVEL)
  have hrun := hstart.step (e := (t, SpinAction.acquire .plain)) ⟨ht, rfl, hacquire⟩
  obtain ⟨_, hcheck, hput⟩ := kernel_bind_eq_ok.mp hacquire
  cases hput
  refine ⟨?_, SpinPair.thread_of_acquireCheck hcheck⟩
  obtain ⟨m', hgo, hpoint⟩ := (h.first _ _ hrun rfl t ht).2 (by simp)
  by_contra hword
  have hspin : SpinMachine.go ((SpinMachine.fresh l).put t l
      { point := .spinning, pair := .plain, irql := DISPATCH_LEVEL, OldIrql := DISPATCH_LEVEL }) t
      = .ok m' := hgo
  simp only [SpinMachine.go, SpinMachine.put_self, SpinMachine.put_lock, if_neg hword] at hspin
  cases hspin
  simp at hpoint

/-- **A lock works exactly when its word is 0 and it names none of the threads.** -/
theorem spinLockWorks_iff :
    SpinLockWorks threads dispatcher l ↔ ∀ t ∈ threads, l.Lock = 0 ∧ l.Thread ≠ some t := by
  refine ⟨fun h t ht => h.free ht, fun hl => ⟨?_, ?_, ?_⟩⟩
  · intro tr m h htaken t ht
    obtain ⟨hfree, hthread⟩ := hl t ht
    obtain ⟨hlock, -⟩ := spinSystem_untaken hfree h htaken
    refine ⟨fun pair hout hirql => ?_, fun hspin => ?_⟩
    · have hcheck : pair.acquireCheck (m.thread t).irql t m.lock = .ok () :=
        SpinPair.acquireCheck_ok hirql (by rw [hlock]; exact hthread)
      exact ⟨_, by rw [SpinMachine.step, hcheck, kernel_ok_bind]; rfl⟩
    · obtain ⟨m', hgo⟩ : ∃ m', m' = { m.put t { m.lock with Lock := 1 }
          { m.thread t with point := .storeIrql } with taken := true } := ⟨_, rfl⟩
      refine ⟨m', ?_, ?_⟩
      · rw [SpinMachine.step, SpinMachine.go, hspin, hgo]
        exact if_pos (by rw [hlock]; exact hfree)
      · rw [hgo]
        simp [SpinMachine.put]
  · exact fun tr m h t u => (spinSystem_exclusive h).unique t u
  · exact fun tr m h t a => (spinSystem_exclusive h).step_ne

end Steps

/-! ## Locks after their initialisation -/

section Initialised

variable {threads : Set UInt32} {dispatcher : Bool} {spinLock parameter : Nat} {m : WordMemory}

/-- **What is expected of the initialiser**: the lock works, and no other memory is modified, where
the place of the parameter does not count. -/
def InitialisedLockWorks (threads : Set UInt32) (dispatcher : Bool) (spinLock parameter : Nat)
    (m : WordMemory) : Prop :=
  SpinLockWorks threads dispatcher
      (spinLockAt (keInitializeSpinLock spinLock parameter m) spinLock)
    ∧ ∀ a, a ≠ parameter → a < spinLock ∨ spinLock + KSPIN_LOCK_WORDS ≤ a →
      keInitializeSpinLock spinLock parameter m a = m a

/-- **The memory on which the initialiser does what is expected**: the lock word is already 0 and the
word `Thread` none of the threads, unless they happen to lie behind the parameter, and what else
lies there is 0. -/
structure AlreadyInitialised (threads : Set UInt32) (spinLock parameter : Nat) (m : WordMemory) :
    Prop where
  Lock : threads.Nonempty → Cleared parameter spinLock ∨ m spinLock = 0
  Thread : ∀ t ∈ threads, Cleared parameter (spinLock + 1) ∨ m (spinLock + 1) = 0
    ∨ m (spinLock + 1) ≠ t
  others : ∀ a, Cleared parameter a → a ≠ parameter →
    a < spinLock ∨ spinLock + KSPIN_LOCK_WORDS ≤ a → m a = 0

/-- A word is 0 after the initialiser exactly when it has been cleared or was 0. -/
theorem keInitializeSpinLock_eq_zero (a : Nat) :
    keInitializeSpinLock spinLock parameter m a = 0 ↔ Cleared parameter a ∨ m a = 0 := by
  obtain ⟨hin, hout⟩ := keInitializeSpinLock_apply spinLock parameter m a
  by_cases hc : Cleared parameter a
  · simp [hc, hin hc]
  · simp [hc, hout hc]

/-- The word `Thread` after the initialiser. -/
theorem spinLockAt_thread (t : UInt32) :
    (spinLockAt (keInitializeSpinLock spinLock parameter m) spinLock).Thread ≠ some t
      ↔ Cleared parameter (spinLock + 1) ∨ m (spinLock + 1) = 0 ∨ m (spinLock + 1) ≠ t := by
  obtain ⟨hin, hout⟩ := keInitializeSpinLock_apply spinLock parameter m (spinLock + 1)
  by_cases hc : Cleared parameter (spinLock + 1)
  · simp [spinLockAt, hc, hin hc]
  · by_cases hz : m (spinLock + 1) = 0
    · simp [spinLockAt, hout hc, hz]
    · simp [spinLockAt, hc, hout hc, hz]

/-- The lock word after the initialiser. -/
theorem spinLockAt_lock :
    (spinLockAt (keInitializeSpinLock spinLock parameter m) spinLock).Lock = 0
      ↔ Cleared parameter spinLock ∨ m spinLock = 0 := by
  rw [← keInitializeSpinLock_eq_zero, spinLockAt]
  exact UInt32.toNat_inj (b := 0)

/-- **The initialiser does what is expected only where there is nothing to do.** -/
theorem keInitializeSpinLock_works_iff (threads : Set UInt32) (dispatcher : Bool)
    (spinLock parameter : Nat) (m : WordMemory) :
    InitialisedLockWorks threads dispatcher spinLock parameter m
      ↔ AlreadyInitialised threads spinLock parameter m := by
  rw [InitialisedLockWorks, spinLockWorks_iff]
  constructor
  · rintro ⟨hlock, hothers⟩
    refine ⟨?_, ?_, ?_⟩
    · rintro ⟨t, ht⟩
      exact spinLockAt_lock.mp (hlock t ht).1
    · intro t ht
      exact (spinLockAt_thread t).mp (hlock t ht).2
    · intro a hc hne ha
      rw [← hothers a hne ha]
      exact (keInitializeSpinLock_apply spinLock parameter m a).1 hc
  · rintro ⟨hlock, hthread, hothers⟩
    refine ⟨fun t ht => ⟨?_, ?_⟩, fun a hne ha => ?_⟩
    · exact spinLockAt_lock.mpr (hlock ⟨t, ht⟩)
    · exact (spinLockAt_thread t).mpr (hthread t ht)
    · obtain ⟨hin, hout⟩ := keInitializeSpinLock_apply spinLock parameter m a
      by_cases hc : Cleared parameter a
      · rw [hin hc, hothers a hc hne ha]
      · exact hout hc

/-- A lock far from the stack whose word is 1 when it is initialised: it can never be acquired. -/
theorem keInitializeSpinLock_fails : ¬ ∀ threads dispatcher spinLock parameter m,
    InitialisedLockWorks threads dispatcher spinLock parameter m := by
  intro h
  obtain ⟨hworks, -⟩ := h {0x80001000} false 1000 0 (Function.update (fun _ => 0) 1000 1)
  have hfree := (spinLockWorks_iff.mp hworks 0x80001000 rfl).1
  have hcase := spinLockAt_lock.mp hfree
  rw [Function.update_self] at hcase
  rcases hcase with ⟨-, hlt⟩ | hone
  · revert hlt
    decide
  · cases hone

end Initialised

end KaushOS
