import KaushOS.Inc.List
import KaushOS.Library.Transition

/-! # Deferred procedure calls (`kern/ke/dpc.c`)

Every processor has a list of pending DPC objects. `KeInsertQueueDpc` and `KeRemoveQueueDpc` edit
it under the processor lock, `KiProcessDpcQueue` takes the first object off and calls its routine.

* **The model** — `KDPC` with its intrusive `DpcListEntry`, and the routines of `dpc.c` over a
  table of such objects and the list heads. `KeInitializeDpc` clears four bytes only, so the links
  of an initialised object are whatever the memory held before.
* **`DpcOrder`** — what the queue is for: a stack of urgent objects in front of a first-in,
  first-out queue of the others.
* **`DpcInvariant`** — the list represents the queue of the abstract order, and insertions,
  removals and executions balance; every locked section keeps it.

The interrupt level and the lock words are not part of the model: a locked section is one step. -/

namespace KaushOS

open CircularList Transition

/-! ## Objects and state -/

/-- `KDPC_IMPORTANCE`. -/
inductive KDPC_IMPORTANCE
  | LowImportance
  | MediumImportance
  | HighImportance
  | MediumHighImportance
  deriving DecidableEq, Repr

/-- The value of the enumeration, as stored in a `UCHAR`. -/
def KDPC_IMPORTANCE.toUCHAR : KDPC_IMPORTANCE → UInt8
  | LowImportance => 0
  | MediumImportance => 1
  | HighImportance => 2
  | MediumHighImportance => 3

/-- `DpcObject` of the enumeration `KOBJECTS`. -/
def dpcObject : UInt8 := 19

/-- `ThreadedDpcObject` of the enumeration `KOBJECTS`. -/
def threadedDpcObject : UInt8 := 24

/-- `KDPC`. Routine, context and arguments are 32-bit pointers. -/
structure KDPC (ι : Type) where
  type : UInt8
  Importance : UInt8
  Number : UInt16
  DpcListEntry : KListEntry ι
  DeferredRoutine : UInt32
  DeferredContext : UInt32
  SystemArgument1 : UInt32
  SystemArgument2 : UInt32
  deriving DecidableEq, Repr

/-- The member `DpcListEntry` of a `KDPC`. -/
def KDPC.entry (ι : Type) : EntryField (KDPC ι) ι where
  get := KDPC.DpcListEntry
  set r e := { r with DpcListEntry := e }
  get_set _ _ := rfl
  set_set _ _ _ := rfl

/-- **The DPC part of the kernel state**: the memory of the DPC objects and, for each processor,
`Prcb.DpcListHead`. -/
structure DpcState (ι : Type) where
  dpc : ι → KDPC ι
  DpcListHead : UInt16 → ListHead ι

variable {ι : Type} [DecidableEq ι]

/-- Store to members of the object `d`. -/
def DpcState.modify (s : DpcState ι) (d : ι) (f : KDPC ι → KDPC ι) : DpcState ι :=
  { s with dpc := Function.update s.dpc d (f (s.dpc d)) }

/-- The links of the DPC objects. -/
abbrev dpcLinks (ι : Type) [DecidableEq ι] : LinkField (ι → KDPC ι) ι := (KDPC.entry ι).links

/-- The pending objects of processor `n`, as `LIST_FOREACH` visits them. -/
def dpcQueue (n : UInt16) (s : DpcState ι) : List ι :=
  listElements (dpcLinks ι) s.dpc (s.DpcListHead n)

/-! ## The routines -/

/-- `KeGetCurrentProcessorNumber()`: the kernel is built for one processor. -/
def keGetCurrentProcessorNumber : UInt16 := 0

/-- `ASSERT_DPC(Object)`. -/
def assertDpc (d : KDPC ι) : Kernel Unit :=
  assert (d.type = 0 ∨ d.type = dpcObject ∨ d.type = threadedDpcObject)
    "((Dpc)->Type == 0) || ((Dpc)->Type == DpcObject) || ((Dpc)->Type == ThreadedDpcObject)"

/-- `KeSetImportanceDpc(Dpc, Importance)`. -/
def keSetImportanceDpc (d : ι) (importance : KDPC_IMPORTANCE) (s : DpcState ι) :
    Kernel (DpcState ι) := do
  assertDpc (s.dpc d)
  return s.modify d fun dpc => { dpc with Importance := importance.toUCHAR }

/-- `KeInitializeDpc(Dpc, DeferredRoutine, DeferredContext)`. The `memset` has the size of a
pointer: it covers `Type`, `Importance` and `Number` and leaves the links and the arguments. -/
def keInitializeDpc (d : ι) (routine context : UInt32) (s : DpcState ι) : DpcState ι :=
  let s := s.modify d fun dpc => { dpc with type := 0, Importance := 0, Number := 0 }
  s.modify d fun dpc =>
    { dpc with
      type := dpcObject
      DeferredRoutine := routine
      DeferredContext := context
      Importance := KDPC_IMPORTANCE.LowImportance.toUCHAR
      Number := keGetCurrentProcessorNumber }

/-- The scan shared by insertion and removal: an object whose next link is `NULL` is taken not to
be on the list, otherwise the list is searched. -/
def dpcScan (d : ι) (n : UInt16) (s : DpcState ι) : Kernel Bool :=
  if (dpcLinks ι).next s.dpc d ≠ none then do
    let found ← listFind (dpcLinks ι) s.dpc (s.DpcListHead n) (fun e => decide (d = e))
    return found.isSome
  else
    return false

/-- `KeInsertQueueDpc(Dpc, SystemArgument1, SystemArgument2)`. -/
def keInsertQueueDpc (d : ι) (arg1 arg2 : UInt32) (s : DpcState ι) :
    Kernel (Bool × DpcState ι) := do
  assertDpc (s.dpc d)
  let s := s.modify d fun dpc => { dpc with SystemArgument1 := arg1, SystemArgument2 := arg2 }
  let n := (s.dpc d).Number
  if ← dpcScan d n s then
    return (false, s)
  let insert :=
    if (s.dpc d).Importance = KDPC_IMPORTANCE.HighImportance.toUCHAR then listInsertHead (dpcLinks ι)
    else listInsertTail (dpcLinks ι)
  let (head, dpc) ← insert (s.DpcListHead n) d s.dpc
  return (true, { dpc, DpcListHead := Function.update s.DpcListHead n head })

/-- `KeRemoveQueueDpc(Dpc)`. -/
def keRemoveQueueDpc (d : ι) (s : DpcState ι) : Kernel (Bool × DpcState ι) := do
  assertDpc (s.dpc d)
  let n := (s.dpc d).Number
  if ← dpcScan d n s then
    let (head, dpc) ← listRemove (dpcLinks ι) (s.DpcListHead n) d s.dpc
    return (true, { dpc, DpcListHead := Function.update s.DpcListHead n head })
  return (false, s)

/-- The locked section of `KiProcessDpcQueue`: take the first object off the list of the current
processor. The caller runs the routine of the object afterwards. -/
def kiDequeueDpc (s : DpcState ι) : Kernel (Option ι × DpcState ι) := do
  let n := keGetCurrentProcessorNumber
  let (d, head, dpc) ← listRemoveHead (dpcLinks ι) (s.DpcListHead n) s.dpc
  return (d, { dpc, DpcListHead := Function.update s.DpcListHead n head })

/-! ## What one routine does to a represented queue -/

/-- The members of a DPC object that the queue routines read and never write. -/
def KDPC.header (d : KDPC ι) : UInt8 × UInt8 × UInt16 := (d.type, d.Importance, d.Number)

variable {s : DpcState ι} {n : UInt16} {d : ι} {l : List ι}

/-- The sequence `l` is pending on processor `n`. -/
def DpcPending (s : DpcState ι) (n : UInt16) (l : List ι) : Prop :=
  IsList (dpcLinks ι) Set.univ s.dpc (s.DpcListHead n) l

/-- The pending sequence is the one that `LIST_FOREACH` visits. -/
theorem DpcPending.dpcQueue_eq (h : DpcPending s n l) : dpcQueue n s = l :=
  h.listElements_eq

/-- Storing back a head that represents `l` makes `l` pending. -/
theorem dpcPending_update {dpc : ι → KDPC ι} {heads : UInt16 → ListHead ι} {head : ListHead ι}
    (h : IsList (dpcLinks ι) Set.univ dpc head l) :
    DpcPending ⟨dpc, Function.update heads n head⟩ n l := by
  simpa only [DpcPending, Function.update_self] using h

/-- Stores that keep the links of an object keep every list. -/
theorem DpcPending.modify (h : DpcPending s n l) (d : ι) {f : KDPC ι → KDPC ι}
    (hf : ∀ r, (f r).DpcListEntry = r.DpcListEntry) : DpcPending (s.modify d f) n l := by
  have hentry : ∀ c, ((s.modify d f).dpc c).DpcListEntry = (s.dpc c).DpcListEntry := by
    intro c
    by_cases hc : c = d
    · subst hc
      simp [DpcState.modify, hf]
    · simp [DpcState.modify, hc]
  exact h.of_links_eq (fun c => congrArg KListEntry.le_next (hentry c))
    (fun c => congrArg KListEntry.le_prev (hentry c))

/-- Stores that keep the header of an object keep every header. -/
theorem header_modify (s : DpcState ι) (d : ι) {f : KDPC ι → KDPC ι}
    (hf : ∀ r, (f r).header = r.header) (i : ι) :
    ((s.modify d f).dpc i).header = (s.dpc i).header := by
  by_cases hi : i = d
  · subst hi
    simp [DpcState.modify, hf]
  · simp [DpcState.modify, hi]

/-- Link edits keep every header. -/
theorem header_of_edits {T : Set ι} {dpc dpc' : ι → KDPC ι} (h : Edits (dpcLinks ι) T dpc dpc')
    (i : ι) : (dpc' i).header = (dpc i).header := by
  have hset := congrArg KDPC.header (EntryField.set_eq_of_edits h i ⟨none, none⟩)
  exact hset

/-- **The shortcut is right.** An object that is on the list has a next link, so the scan that is
skipped when the link is `NULL` always answers as a full scan would. -/
theorem dpcScan_eq (h : DpcPending s n l) (d : ι) : dpcScan d n s = .ok (decide (d ∈ l)) := by
  unfold dpcScan
  split
  · have hfind : (l.find? fun e => decide (d = e)).isSome = decide (d ∈ l) := by
      rw [Bool.eq_iff_iff, List.find?_isSome]
      simp
    rw [IsList.listFind_eq h, kernel_ok_bind, hfind]
    rfl
  · rename_i hnext
    have hd : d ∉ l := fun hd => IsList.next_ne_none h hd (not_not.mp hnext)
    rw [decide_eq_false hd]
    rfl

/-- **`KeInsertQueueDpc`** answers whether the object was absent, and puts an absent object in
front when its importance is high, at the end otherwise. -/
theorem keInsertQueueDpc_spec (h : DpcPending s n l) (htype : (s.dpc d).type = dpcObject)
    (hn : (s.dpc d).Number = n) (arg1 arg2 : UInt32) :
    ∃ s', keInsertQueueDpc d arg1 arg2 s = .ok (decide (d ∉ l), s')
      ∧ DpcPending s' n (if d ∈ l then l
          else if (s.dpc d).Importance = KDPC_IMPORTANCE.HighImportance.toUCHAR then d :: l
          else l ++ [d])
      ∧ ∀ i, (s'.dpc i).header = (s.dpc i).header := by
  let s₁ := s.modify d fun dpc => { dpc with SystemArgument1 := arg1, SystemArgument2 := arg2 }
  have h₁ : DpcPending s₁ n l := h.modify d fun _ => rfl
  have hheader : ∀ i, (s₁.dpc i).header = (s.dpc i).header := header_modify s d fun _ => rfl
  have hn₁ : (s₁.dpc d).Number = n := by
    rw [← hn]; exact congrArg (fun p => p.2.2) (hheader d)
  have himp : (s₁.dpc d).Importance = (s.dpc d).Importance :=
    congrArg (fun p => p.2.1) (hheader d)
  have hassert : assertDpc (s.dpc d) = .ok () := assert_of_true (Or.inr (Or.inl htype)) _
  have hscan := dpcScan_eq h₁ d
  by_cases hd : d ∈ l
  · refine ⟨s₁, ?_, ?_, hheader⟩
    · simp only [keInsertQueueDpc, hassert, kernel_ok_bind]
      rw [hn₁, hscan]
      simp [hd, s₁]
      rfl
    · rw [if_pos hd]
      exact h₁
  · -- the object is spliced in at the end of the list that its importance selects
    obtain ⟨head, dpc', hrun, hlist, hedits⟩ : ∃ head dpc',
        (if (s₁.dpc d).Importance = KDPC_IMPORTANCE.HighImportance.toUCHAR
          then listInsertHead (dpcLinks ι) else listInsertTail (dpcLinks ι))
          (s₁.DpcListHead n) d s₁.dpc = .ok (head, dpc')
        ∧ IsList (dpcLinks ι) Set.univ dpc' head
          (if (s.dpc d).Importance = KDPC_IMPORTANCE.HighImportance.toUCHAR then d :: l
            else l ++ [d])
        ∧ Edits (dpcLinks ι) {c | c ∈ d :: l} s₁.dpc dpc' := by
      rw [himp]
      split
      · exact IsList.insertHead (EntryField.links_lawful _) h₁ hd trivial
      · exact IsList.insertTail (EntryField.links_lawful _) h₁ hd trivial
    refine ⟨⟨dpc', Function.update s₁.DpcListHead n head⟩, ?_, ?_, ?_⟩
    · simp only [keInsertQueueDpc, hassert, kernel_ok_bind]
      rw [hn₁, hscan]
      simp [hd]
      rw [hrun]
      rfl
    · rw [if_neg hd]
      exact dpcPending_update hlist
    · intro i
      rw [header_of_edits hedits i, hheader i]

/-- **`KeRemoveQueueDpc`** answers whether the object was on the list, and takes it off. -/
theorem keRemoveQueueDpc_spec (h : DpcPending s n l) (htype : (s.dpc d).type = dpcObject)
    (hn : (s.dpc d).Number = n) :
    ∃ s', keRemoveQueueDpc d s = .ok (decide (d ∈ l), s') ∧ DpcPending s' n (l.erase d)
      ∧ ∀ i, (s'.dpc i).header = (s.dpc i).header := by
  have hassert : assertDpc (s.dpc d) = .ok () := assert_of_true (Or.inr (Or.inl htype)) _
  have hscan := dpcScan_eq h d
  by_cases hd : d ∈ l
  · obtain ⟨head, dpc', hrun, hlist, hedits⟩ := IsList.remove (EntryField.links_lawful _) h hd
    refine ⟨⟨dpc', Function.update s.DpcListHead n head⟩, ?_, ?_, header_of_edits hedits⟩
    · simp only [keRemoveQueueDpc, hassert, kernel_ok_bind, hn, hscan]
      simp only [hd, decide_true, if_true, hrun, kernel_ok_bind]
      rfl
    · exact dpcPending_update hlist
  · refine ⟨s, ?_, ?_, fun _ => rfl⟩
    · simp only [keRemoveQueueDpc, hassert, kernel_ok_bind, hn, hscan]
      simp [hd]
      rfl
    · rw [List.erase_of_not_mem hd]
      exact h

/-- **The dequeue step** takes the first pending object off the list of the current processor. -/
theorem kiDequeueDpc_spec (h : DpcPending s keGetCurrentProcessorNumber l) :
    ∃ s', kiDequeueDpc s = .ok (l.head?, s') ∧ DpcPending s' keGetCurrentProcessorNumber l.tail
      ∧ ∀ i, (s'.dpc i).header = (s.dpc i).header := by
  obtain ⟨head, dpc', hrun, hlist, hedits⟩ := IsList.removeHead (EntryField.links_lawful _) h
  refine ⟨⟨dpc', Function.update s.DpcListHead keGetCurrentProcessorNumber head⟩, ?_, ?_,
    header_of_edits hedits⟩
  · simp only [kiDequeueDpc, hrun, kernel_ok_bind]
    rfl
  · exact dpcPending_update hlist

/-- The removal from an empty list leaves it empty. -/
theorem kiDequeueDpc_empty {s' : DpcState ι} {r : Option ι} (h : kiDequeueDpc s = .ok (r, s'))
    (hempty : listEmpty (s.DpcListHead keGetCurrentProcessorNumber) = true) :
    listEmpty (s'.DpcListHead keGetCurrentProcessorNumber) = true := by
  have hfirst : (s.DpcListHead keGetCurrentProcessorNumber).lh_first = none :=
    Option.isNone_iff_eq_none.mp hempty
  have hremove : listRemoveHead (dpcLinks ι) (s.DpcListHead keGetCurrentProcessorNumber) s.dpc
      = .ok (none, s.DpcListHead keGetCurrentProcessorNumber, s.dpc) := by
    unfold listRemoveHead
    rw [hfirst]
    rfl
  rw [kiDequeueDpc, hremove] at h
  cases h
  simpa only [Function.update_self] using hempty

/-- `KeRemoveQueueDpc` does not make an empty list nonempty. -/
theorem keRemoveQueueDpc_empty {s' : DpcState ι} {r : Bool}
    (h : keRemoveQueueDpc d s = .ok (r, s'))
    (hempty : listEmpty (s.DpcListHead keGetCurrentProcessorNumber) = true) :
    listEmpty (s'.DpcListHead keGetCurrentProcessorNumber) = true := by
  obtain ⟨_, -, h⟩ := kernel_bind_eq_ok.mp h
  obtain ⟨found, -, h⟩ := kernel_bind_eq_ok.mp h
  cases found with
  | false =>
    cases h
    exact hempty
  | true =>
    obtain ⟨⟨head, dpc⟩, hremove, h⟩ := kernel_bind_eq_ok.mp h
    cases h
    by_cases hn : (s.dpc d).Number = keGetCurrentProcessorNumber
    · rw [hn] at hremove ⊢
      simpa only [Function.update_self] using listRemove_empty hremove hempty
    · simpa only [Function.update_of_ne (Ne.symm hn)] using hempty

/-! ## Runs -/

/-- **One locked section, with its result.** `insert` also records the importance that the object
has at that moment, `dequeue` the object whose routine is run next (`none` on an empty list). -/
inductive DpcEvent (ι : Type)
  | init (d : ι) (routine context : UInt32)
  | setImportance (d : ι) (importance : KDPC_IMPORTANCE)
  | insert (d : ι) (arg1 arg2 : UInt32) (importance : UInt8) (accepted : Bool)
  | remove (d : ι) (removed : Bool)
  | dequeue (d : Option ι)
  deriving DecidableEq, Repr

/-- The object has been set up by `KeInitializeDpc`. -/
def DpcInitialized (t : List (DpcEvent ι)) (d : ι) : Prop :=
  ∃ routine context, DpcEvent.init d routine context ∈ t

/-- **The DPC queue of the processor as a transition system.** The memory of the objects is
arbitrary at the start; objects are used after `KeInitializeDpc` and not set up again while they
are queued. -/
def dpcSystem (ι : Type) [DecidableEq ι] : System (DpcEvent ι) (DpcState ι) where
  init s := s.DpcListHead keGetCurrentProcessorNumber = listInit
  step t s e s' :=
    match e with
    | .init d routine context =>
      d ∉ dpcQueue keGetCurrentProcessorNumber s ∧ s' = keInitializeDpc d routine context s
    | .setImportance d importance =>
      DpcInitialized t d ∧ keSetImportanceDpc d importance s = .ok s'
    | .insert d arg1 arg2 importance accepted =>
      DpcInitialized t d ∧ (s.dpc d).Importance = importance
        ∧ keInsertQueueDpc d arg1 arg2 s = .ok (accepted, s')
    | .remove d removed => DpcInitialized t d ∧ keRemoveQueueDpc d s = .ok (removed, s')
    | .dequeue d => kiDequeueDpc s = .ok (d, s')

/-- How often `KeInsertQueueDpc` accepted `d`. -/
def acceptedInsertions (d : ι) (t : List (DpcEvent ι)) : Nat :=
  t.countP fun e => match e with
    | .insert d' _ _ _ true => decide (d' = d)
    | _ => false

/-- How often `KeRemoveQueueDpc` took `d` off the list. -/
def removals (d : ι) (t : List (DpcEvent ι)) : Nat :=
  t.countP fun e => match e with
    | .remove d' true => decide (d' = d)
    | _ => false

/-- How often the routine of `d` was run. -/
def executions (d : ι) (t : List (DpcEvent ι)) : Nat :=
  t.countP fun e => match e with
    | .dequeue (some d') => decide (d' = d)
    | _ => false

/-! ## What the queue is for -/

/-- **The abstract queue**: urgent objects, the latest first, in front of the others, the oldest
first. -/
structure DpcOrder (ι : Type) where
  /-- The objects inserted with high importance, latest insertion first. -/
  front : List ι
  /-- All other objects, oldest insertion first. -/
  back : List ι

/-- The order in which the objects will run. -/
def DpcOrder.queue (o : DpcOrder ι) : List ι := o.front ++ o.back

/-- What one event does to the abstract queue. -/
def DpcOrder.after (o : DpcOrder ι) : DpcEvent ι → DpcOrder ι
  | .insert d _ _ importance true =>
    if importance = KDPC_IMPORTANCE.HighImportance.toUCHAR then { o with front := d :: o.front }
    else { o with back := o.back ++ [d] }
  | .remove d true => { front := o.front.erase d, back := o.back.erase d }
  | .dequeue (some _) =>
    match o.front with
    | [] => { o with back := o.back.tail }
    | _ :: front => { o with front }
  | _ => o

/-- The abstract queue after a trace. -/
def dpcOrder : List (DpcEvent ι) → DpcOrder ι
  | [] => { front := [], back := [] }
  | e :: t => (dpcOrder t).after e

/-- An accepted insertion goes in front or to the end, by its importance. -/
theorem DpcOrder.queue_insert (o : DpcOrder ι) (d : ι) (arg1 arg2 : UInt32) (importance : UInt8) :
    (o.after (.insert d arg1 arg2 importance true)).queue
      = if importance = KDPC_IMPORTANCE.HighImportance.toUCHAR then d :: o.queue
        else o.queue ++ [d] := by
  by_cases h : importance = KDPC_IMPORTANCE.HighImportance.toUCHAR
  · simp [DpcOrder.after, DpcOrder.queue, h]
  · simp [DpcOrder.after, DpcOrder.queue, h]

/-- A removal erases the object from the order. -/
theorem DpcOrder.queue_remove {o : DpcOrder ι} (h : o.queue.Nodup) (d : ι) :
    (o.after (.remove d true)).queue = o.queue.erase d := by
  have hdisj : List.Disjoint o.front o.back := List.disjoint_of_nodup_append h
  show o.front.erase d ++ o.back.erase d = (o.front ++ o.back).erase d
  rw [List.erase_append]
  split
  · rename_i hd
    rw [List.erase_of_not_mem (hdisj hd)]
  · rename_i hd
    rw [List.erase_of_not_mem hd]

/-- A dequeue drops the first object of the order. -/
theorem DpcOrder.queue_dequeue (o : DpcOrder ι) (d : ι) :
    (o.after (.dequeue (some d))).queue = o.queue.tail := by
  obtain ⟨front, back⟩ := o
  cases front with
  | nil => rfl
  | cons _ front => rfl

/-! ## The invariant of the queue -/

/-- **The queue invariant.** The list represents the abstract order, initialised objects belong to
the processor, and the book of insertions balances. -/
structure DpcInvariant (t : List (DpcEvent ι)) (s : DpcState ι) : Prop where
  pending : DpcPending s keGetCurrentProcessorNumber (dpcOrder t).queue
  initialized : ∀ d, DpcInitialized t d →
    (s.dpc d).type = dpcObject ∧ (s.dpc d).Number = keGetCurrentProcessorNumber
  balance : ∀ d, acceptedInsertions d t
    = removals d t + executions d t + (dpcOrder t).queue.count d

omit [DecidableEq ι] in
/-- Only `init` adds to the initialised objects. -/
theorem dpcInitialized_cons {t : List (DpcEvent ι)} {e : DpcEvent ι} {d : ι}
    (h : DpcInitialized (e :: t) d) :
    DpcInitialized t d ∨ ∃ routine context, e = .init d routine context := by
  obtain ⟨routine, context, h⟩ := h
  rcases List.mem_cons.mp h with rfl | h
  · exact Or.inr ⟨routine, context, rfl⟩
  · exact Or.inl ⟨routine, context, h⟩

/-- **Step rule.** An event that keeps every header has to account for the queue and the book. -/
theorem DpcInvariant.next {t : List (DpcEvent ι)} {s s' : DpcState ι} {e : DpcEvent ι}
    (h : DpcInvariant t s) (he : ∀ d routine context, e ≠ .init d routine context)
    (hh : ∀ i, (s'.dpc i).header = (s.dpc i).header)
    (hp : DpcPending s' keGetCurrentProcessorNumber (dpcOrder (e :: t)).queue)
    (hb : ∀ d, acceptedInsertions d (e :: t)
      = removals d (e :: t) + executions d (e :: t) + (dpcOrder (e :: t)).queue.count d) :
    DpcInvariant (e :: t) s' := by
  refine ⟨hp, ?_, hb⟩
  intro d hd
  obtain hd | ⟨routine, context, hd⟩ := dpcInitialized_cons hd
  · obtain ⟨htype, hnum⟩ := h.initialized d hd
    have htype' : (s'.dpc d).type = (s.dpc d).type := congrArg (fun p => p.1) (hh d)
    have hnum' : (s'.dpc d).Number = (s.dpc d).Number := congrArg (fun p => p.2.2) (hh d)
    exact ⟨htype'.trans htype, hnum'.trans hnum⟩
  · exact absurd hd (he d routine context)

/-- At the start nothing is pending and nothing is initialised. -/
theorem dpcInvariant_init {s : DpcState ι} (h : (dpcSystem ι).init s) : DpcInvariant [] s := by
  refine ⟨?_, ?_, fun _ => rfl⟩
  · have hhead : s.DpcListHead keGetCurrentProcessorNumber = listInit := h
    rw [DpcPending, hhead]
    exact isList_listInit
  · rintro d ⟨_, _, hd⟩
    exact absurd hd List.not_mem_nil

/-- `KeInitializeDpc` of an object that is not queued keeps the invariant. -/
theorem DpcInvariant.init {t : List (DpcEvent ι)} {s : DpcState ι} (h : DpcInvariant t s) (d : ι)
    (routine context : UInt32) :
    DpcInvariant (.init d routine context :: t) (keInitializeDpc d routine context s) := by
  have hpend : DpcPending (keInitializeDpc d routine context s) keGetCurrentProcessorNumber
      (dpcOrder t).queue := by
    refine DpcPending.modify (DpcPending.modify h.pending d ?_) d ?_
    · exact fun _ => rfl
    · exact fun _ => rfl
  refine ⟨hpend, ?_, h.balance⟩
  intro i hi
  by_cases hid : i = d
  · subst hid
    simp [keInitializeDpc, DpcState.modify]
  · obtain hi | ⟨_, _, he⟩ := dpcInitialized_cons hi
    · simpa [keInitializeDpc, DpcState.modify, hid] using h.initialized i hi
    · exact absurd (DpcEvent.init.inj he).1.symm hid

/-- `KeSetImportanceDpc` keeps the invariant, also for a queued object. -/
theorem DpcInvariant.setImportance {t : List (DpcEvent ι)} {s s' : DpcState ι}
    (h : DpcInvariant t s) {d : ι} {importance : KDPC_IMPORTANCE} (hd : DpcInitialized t d)
    (hrun : keSetImportanceDpc d importance s = .ok s') :
    DpcInvariant (.setImportance d importance :: t) s' := by
  have hassert : assertDpc (s.dpc d) = .ok () :=
    assert_of_true (Or.inr (Or.inl (h.initialized d hd).1)) _
  rw [keSetImportanceDpc, hassert, kernel_ok_bind] at hrun
  obtain rfl := Except.ok.inj hrun
  refine ⟨h.pending.modify d fun _ => rfl, ?_, h.balance⟩
  intro i hi
  obtain ht | ⟨_, _, he⟩ := dpcInitialized_cons hi
  · by_cases hid : i = d
    · subst hid
      simpa [DpcState.modify] using h.initialized i ht
    · simpa [DpcState.modify, hid] using h.initialized i ht
  · cases he

/-- `KeInsertQueueDpc` keeps the invariant. -/
theorem DpcInvariant.insert {t : List (DpcEvent ι)} {s s' : DpcState ι} (h : DpcInvariant t s)
    {d : ι} {arg1 arg2 : UInt32} {accepted : Bool} (hd : DpcInitialized t d)
    (hrun : keInsertQueueDpc d arg1 arg2 s = .ok (accepted, s')) :
    DpcInvariant (.insert d arg1 arg2 (s.dpc d).Importance accepted :: t) s' := by
  obtain ⟨htype, hnum⟩ := h.initialized d hd
  obtain ⟨s₁, hspec, hpend, hheader⟩ := keInsertQueueDpc_spec h.pending htype hnum arg1 arg2
  obtain ⟨hacc, rfl⟩ : decide (d ∉ (dpcOrder t).queue) = accepted ∧ s₁ = s' := by
    simpa using hspec.symm.trans hrun
  cases accepted with
  | false =>
    -- refused: nothing is queued and nothing is counted
    have hmem : d ∈ (dpcOrder t).queue := by simpa using hacc
    rw [if_pos hmem] at hpend
    exact h.next (by simp) hheader hpend h.balance
  | true =>
    have hmem : d ∉ (dpcOrder t).queue := by simpa using hacc
    rw [if_neg hmem] at hpend
    have hqueue := (dpcOrder t).queue_insert d arg1 arg2 (s.dpc d).Importance
    refine h.next (by simp) hheader (hqueue ▸ hpend) fun i => ?_
    have hbal := h.balance i
    show _ = removals i t + executions i t + ((dpcOrder t).after _).queue.count i
    rw [hqueue]
    by_cases hdi : d = i
    · subst hdi
      have hcount : acceptedInsertions d
          (.insert d arg1 arg2 (s.dpc d).Importance true :: t) = acceptedInsertions d t + 1 := by
        simp [acceptedInsertions]
      rw [hcount, hbal]
      split <;> simp [List.count_append] <;> omega
    · have hcount : acceptedInsertions i
          (.insert d arg1 arg2 (s.dpc d).Importance true :: t) = acceptedInsertions i t := by
        simp [acceptedInsertions, hdi]
      rw [hcount, hbal]
      split <;> simp [List.count_append, hdi]

/-- `KeRemoveQueueDpc` keeps the invariant. -/
theorem DpcInvariant.remove {t : List (DpcEvent ι)} {s s' : DpcState ι} (h : DpcInvariant t s)
    {d : ι} {removed : Bool} (hd : DpcInitialized t d)
    (hrun : keRemoveQueueDpc d s = .ok (removed, s')) :
    DpcInvariant (.remove d removed :: t) s' := by
  have hnodup : (dpcOrder t).queue.Nodup := h.pending.nodup
  obtain ⟨htype, hnum⟩ := h.initialized d hd
  obtain ⟨s₁, hspec, hpend, hheader⟩ := keRemoveQueueDpc_spec h.pending htype hnum
  obtain ⟨hrem, rfl⟩ : decide (d ∈ (dpcOrder t).queue) = removed ∧ s₁ = s' := by
    simpa using hspec.symm.trans hrun
  cases removed with
  | false =>
    have hmem : d ∉ (dpcOrder t).queue := by simpa using hrem
    rw [List.erase_of_not_mem hmem] at hpend
    exact h.next (by simp) hheader hpend h.balance
  | true =>
    have hmem : d ∈ (dpcOrder t).queue := by simpa using hrem
    have hqueue := DpcOrder.queue_remove hnodup d
    refine h.next (by simp) hheader (hqueue ▸ hpend) fun i => ?_
    have hbal : acceptedInsertions i t = _ := h.balance i
    show acceptedInsertions i t = _ + executions i t + ((dpcOrder t).after _).queue.count i
    rw [hqueue, hbal]
    by_cases hdi : d = i
    · subst hdi
      have hpos : 0 < (dpcOrder t).queue.count d := List.count_pos_iff.mpr hmem
      have hcount : removals d (.remove d true :: t) = removals d t + 1 := by simp [removals]
      rw [hcount, List.count_erase_self]
      omega
    · have hcount : removals i (.remove d true :: t) = removals i t := by simp [removals, hdi]
      rw [hcount, List.count_erase_of_ne (Ne.symm hdi)]

/-- The dequeue step keeps the invariant. -/
theorem DpcInvariant.dequeue {t : List (DpcEvent ι)} {s s' : DpcState ι} (h : DpcInvariant t s)
    {r : Option ι} (hrun : kiDequeueDpc s = .ok (r, s')) : DpcInvariant (.dequeue r :: t) s' := by
  obtain ⟨s₁, hspec, hpend, hheader⟩ := kiDequeueDpc_spec h.pending
  obtain ⟨hr, rfl⟩ : (dpcOrder t).queue.head? = r ∧ s₁ = s' := by
    simpa using hspec.symm.trans hrun
  cases r with
  | none =>
    have hnil : (dpcOrder t).queue = [] := by simpa using hr
    rw [hnil] at hpend
    exact h.next (by simp) hheader (hnil ▸ hpend) h.balance
  | some d =>
    obtain ⟨rest, hrest⟩ := List.head?_eq_some_iff.mp hr
    have hqueue := (dpcOrder t).queue_dequeue d
    refine h.next (by simp) hheader (hqueue ▸ hpend) fun i => ?_
    have hbal : acceptedInsertions i t = _ := h.balance i
    show acceptedInsertions i t = removals i t + _ + ((dpcOrder t).after _).queue.count i
    rw [hqueue, hbal, hrest]
    by_cases hdi : d = i
    · subst hdi
      have hcount : executions d (.dequeue (some d) :: t) = executions d t + 1 := by
        simp [executions]
      rw [hcount, List.tail_cons, List.count_cons_self]
      omega
    · have hcount : executions i (.dequeue (some d) :: t) = executions i t := by
        simp [executions, hdi]
      rw [hcount, List.tail_cons, List.count_cons_of_ne (by simpa using hdi)]

/-- **The queue invariant holds in every state a run reaches.** -/
theorem dpcInvariant_run {t : List (DpcEvent ι)} {s : DpcState ι} (h : (dpcSystem ι).Run t s) :
    DpcInvariant t s := by
  refine h.invariant (fun s hs => dpcInvariant_init hs) ?_
  intro t s e s' _ hinv hs
  cases e with
  | init d routine context =>
    obtain ⟨-, rfl⟩ := hs
    exact hinv.init d routine context
  | setImportance d importance => exact hinv.setImportance hs.1 hs.2
  | insert d arg1 arg2 importance accepted =>
    obtain ⟨hd, rfl, hrun⟩ := hs
    exact hinv.insert hd hrun
  | remove d removed => exact hinv.remove hs.1 hs.2
  | dequeue r => exact hinv.dequeue hs

/-! ## Correctness of the queue -/

/-- **DPC queue correctness.** In every state that a run reaches: no object is queued twice; the
shortcut on a `NULL` link agrees with the scan; insertion accepts exactly the absent objects and
removal succeeds exactly on the queued ones; accepted insertions are removals plus executions plus
the queued object; and the queue, which the dequeue step serves from its front, holds the
high-importance insertions, latest first, followed by all others in order of insertion. -/
theorem dpc_queue_correct {t : List (DpcEvent ι)} {s : DpcState ι} (h : (dpcSystem ι).Run t s) :
    let queue := dpcQueue keGetCurrentProcessorNumber s
    queue.Nodup
    ∧ (∀ d, (s.dpc d).DpcListEntry.le_next = none →
        listFind (dpcLinks ι) s.dpc (s.DpcListHead keGetCurrentProcessorNumber)
          (fun e => decide (d = e)) = .ok none)
    ∧ (∀ d arg1 arg2, DpcInitialized t d →
        ∃ s', keInsertQueueDpc d arg1 arg2 s = .ok (decide (d ∉ queue), s'))
    ∧ (∀ d, DpcInitialized t d → ∃ s', keRemoveQueueDpc d s = .ok (decide (d ∈ queue), s'))
    ∧ (∀ d, acceptedInsertions d t
        = removals d t + executions d t + if d ∈ queue then 1 else 0)
    ∧ queue = (dpcOrder t).front ++ (dpcOrder t).back
    ∧ ∃ s', kiDequeueDpc s = .ok (queue.head?, s') := by
  have hinv := dpcInvariant_run h
  have hqueue : dpcQueue keGetCurrentProcessorNumber s = (dpcOrder t).queue :=
    hinv.pending.dpcQueue_eq
  rw [hqueue]
  refine ⟨hinv.pending.nodup, ?_, ?_, ?_, ?_, rfl, ?_⟩
  · intro d hd
    have hmem : d ∉ (dpcOrder t).queue := fun hmem => IsList.next_ne_none hinv.pending hmem hd
    rw [IsList.listFind_eq hinv.pending, List.find?_eq_none.mpr]
    intro e he hde
    exact hmem (of_decide_eq_true hde ▸ he)
  · intro d arg1 arg2 hd
    obtain ⟨htype, hnum⟩ := hinv.initialized d hd
    obtain ⟨s', hrun, -⟩ := keInsertQueueDpc_spec hinv.pending htype hnum arg1 arg2
    exact ⟨s', hrun⟩
  · intro d hd
    obtain ⟨htype, hnum⟩ := hinv.initialized d hd
    obtain ⟨s', hrun, -⟩ := keRemoveQueueDpc_spec hinv.pending htype hnum
    exact ⟨s', hrun⟩
  · intro d
    rw [hinv.balance d, hinv.pending.nodup.count]
  · obtain ⟨s', hrun, -⟩ := kiDequeueDpc_spec hinv.pending
    exact ⟨s', hrun⟩

/-- One object, set up in arbitrary memory, inserted with high importance and inserted again. -/
theorem dpc_queue_correct_twice : ∃ s, (dpcSystem Bool).Run
      [.insert true 0 0 2 false, .insert true 0 0 2 true,
        .setImportance true .HighImportance, .init true 0 0] s
    ∧ dpcQueue keGetCurrentProcessorNumber s = [true] ++ [] := by
  let s₀ : DpcState Bool :=
    ⟨fun _ => ⟨7, 7, 7, ⟨some false, some true⟩, 1, 2, 3, 4⟩, fun _ => listInit⟩
  have h₀ : (dpcSystem Bool).Run [] s₀ := .start (show s₀.DpcListHead 0 = listInit from rfl)
  have h₁ := h₀.step (e := DpcEvent.init true 0 0) ⟨by decide, rfl⟩
  have h₂ := h₁.step (e := DpcEvent.setImportance true .HighImportance) ⟨⟨0, 0, by simp⟩, rfl⟩
  have h₃ := h₂.step (e := DpcEvent.insert true 0 0 2 true) ⟨⟨0, 0, by simp⟩, rfl, rfl⟩
  have h₄ := h₃.step (e := DpcEvent.insert true 0 0 2 false) ⟨⟨0, 0, by simp⟩, rfl, rfl⟩
  exact ⟨_, h₄, (dpc_queue_correct h₄).2.2.2.2.2.1⟩

end KaushOS
