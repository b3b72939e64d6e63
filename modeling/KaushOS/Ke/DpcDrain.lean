import KaushOS.Ke.InterruptLevels

/-! # DPCs are run before the IRQL goes below `DISPATCH_LEVEL`

`KeLowerIrql` runs the pending DPCs at `DISPATCH_LEVEL` and lowers the IRQL when it has found the
list empty. An interrupt between the two finds the IRQL at `DISPATCH_LEVEL`, goes back to it, and
does not look at the list.

* **`Drained`** — a routine has found the list empty and is about to lower the IRQL.
* **`QuietFrame`** — an interrupt at or above `DISPATCH_LEVEL`, which leaves threads and the DPC list
  alone except for insertions.
* **`IrqMachine.DpcsServed`** — DPCs are pending at or above `DISPATCH_LEVEL` only, and no drained
  routine is below a frame that is not quiet.
* **`dpcs_served`** — so no DPC is left pending, as long as none is inserted on top of a drained
  routine. -/

namespace KaushOS

open Transition

variable {θ δ : Type}

/-- **The DPC list has been found empty, and the IRQL is lowered next.** -/
def Drained : List (IrqOp δ) → Prop
  | .lowerStore c old :: _ => old < DISPATCH_LEVEL ∧ DISPATCH_LEVEL ≤ c
  | _ => False

/-- The steps of interrupts that do not go below `DISPATCH_LEVEL`. -/
def IrqOp.Quiet : IrqOp δ → Prop
  | .work | .checkDispatch | .testDpcQueue | .dequeueDpc | .removeDpc _ | .swap => False
  | _ => True

/-- **A quiet frame**: an interrupt that came in at or above `DISPATCH_LEVEL`, or an insertion by one. -/
def QuietFrame (f : IrqFrame δ) : Prop := DISPATCH_LEVEL ≤ f.entry ∧ ∀ op ∈ f.code, op.Quiet

/-- What is on top of a drained or a quiet frame is quiet. -/
def Shelters (g f : IrqFrame δ) : Prop := Drained f.code ∨ QuietFrame f → QuietFrame g

/-- **What the condition says.** No DPC is inserted while a routine of the running thread has found
the list empty and has not lowered the IRQL yet. -/
def InsertedBeforeTest (l : IrqEvent θ δ × IrqMachine θ δ) : Prop :=
  ∀ choice d arg1 arg2, l.1 = .step choice → l.2.nextOp = some (.insertDpc d arg1 arg2) →
    ∀ f ∈ l.2.stack, ¬ Drained f.code

/-- **DPCs are served**: they are pending at or above `DISPATCH_LEVEL` only, and where a routine is
drained there are none and only quiet frames are above it. -/
structure IrqMachine.DpcsServed (m : IrqMachine θ δ) : Prop where
  high : m.noDpc = false → DISPATCH_LEVEL ≤ m.processor.CurrentIrql
  empty : ∀ f ∈ m.stack, Drained f.code → m.noDpc = true
  sheltered : m.stack.IsChain Shelters
  suspended : ∀ t, (m.suspended t).IsChain Shelters ∧ ∀ f ∈ m.suspended t, ¬ Drained f.code

variable {i : Interrupts} {m m' : IrqMachine θ δ} {f g : IrqFrame δ} {rest : List (IrqFrame δ)}
  {code : List (IrqOp δ)} {checked : Bool}

/-- Below a frame that is not quiet no frame is drained. -/
theorem not_drained_below (h : (g :: rest).IsChain Shelters) (hg : ¬ QuietFrame g) :
    ∀ f ∈ rest, ¬ Drained f.code ∧ ¬ QuietFrame f := by
  induction rest generalizing g with
  | nil => exact fun f hf => absurd hf List.not_mem_nil
  | cons f rest ih =>
    obtain ⟨hshelters, hrest⟩ := List.isChain_cons_cons.mp h
    have hf : ¬ Drained f.code ∧ ¬ QuietFrame f := by
      constructor
      · exact fun hd => hg (hshelters (Or.inl hd))
      · exact fun hq => hg (hshelters (Or.inr hq))
    exact List.forall_mem_cons.mpr ⟨hf, ih hrest hf.2⟩

/-- Only the test of the list is in front of a drained point. -/
theorem Levels.not_drained {entry : Nat} {p : IrqPoint} (h : Levels i entry p code)
    (hp : p.tested = false) : ¬ Drained code := by
  intro hdrained
  cases code with
  | nil => exact hdrained
  | cons op code =>
    cases op with
    | lowerStore c old =>
      have htested := h.1.2.2.2.2 hdrained.1 hdrained.2
      rw [hp] at htested
      cases htested
    | _ => exact hdrained

/-- A frame goes on with quiet steps if it was quiet. -/
theorem QuietFrame.lower {c : Nat} (h : QuietFrame f) (hcode : f.code = .lower :: code) :
    ∀ op ∈ lowerCode c f.entry ++ code, op.Quiet := by
  have hnot : ¬ (f.entry < DISPATCH_LEVEL ∧ c ≥ DISPATCH_LEVEL) := by
    have hentry := h.1
    omega
  intro op hop
  rw [lowerCode, if_neg hnot] at hop
  rcases List.mem_append.mp hop with hop | hop
  · unfold lowerTail at hop
    split at hop
    · simp only [List.mem_cons, List.not_mem_nil, or_false] at hop
      rcases hop with rfl | rfl | rfl | rfl | rfl <;> exact trivial
    · exact absurd hop List.not_mem_nil
  · exact h.2 op (hcode ▸ List.mem_cons_of_mem _ hop)

/-- The steps of a raise are quiet. -/
theorem QuietFrame.raise {c : Nat} {target : RaiseTo} (h : QuietFrame f)
    (hcode : f.code = .raise target :: code) :
    ∀ op ∈ raiseCode c target ++ code, op.Quiet := by
  intro op hop
  rcases List.mem_append.mp hop with hop | hop
  · unfold raiseCode at hop
    split at hop
    · simp only [List.mem_cons, List.not_mem_nil, or_false] at hop
      rcases hop with rfl | rfl | rfl | rfl | rfl <;> exact trivial
    · exact absurd hop List.not_mem_nil
  · exact h.2 op (hcode ▸ List.mem_cons_of_mem _ hop)

/-- **Frame rule.** The top frame goes on with other steps, which are quiet if it was. -/
theorem IrqMachine.DpcsServed.go (h : m.DpcsServed) (hstack : m.stack = f :: rest)
    {processor : Processor} (old : Nat)
    (hhigh : m.noDpc = false → DISPATCH_LEVEL ≤ processor.CurrentIrql)
    (hdrained : Drained code → m.noDpc = true)
    (hquiet : QuietFrame f → ∀ op ∈ code, op.Quiet) :
    (m.next { f with OldIrql := old } code rest processor).DpcsServed := by
  have hempty := h.empty
  have hsheltered := h.sheltered
  rw [hstack] at hempty hsheltered
  refine ⟨hhigh, ?_, ?_, h.suspended⟩
  · exact List.forall_mem_cons.mpr ⟨hdrained, (List.forall_mem_cons.mp hempty).2⟩
  · cases rest with
    | nil => exact .singleton _
    | cons f' rest =>
      obtain ⟨hshelters, hrest⟩ := List.isChain_cons_cons.mp hsheltered
      refine List.isChain_cons_cons.mpr ⟨fun hf => ?_, hrest⟩
      have hf' := hshelters hf
      exact ⟨hf'.1, hquiet hf'⟩

variable [DecidableEq θ] [DecidableEq δ]

/-- **A step of the running routine keeps the DPCs served** when it is not an insertion on top of a
drained routine. -/
theorem IrqMachine.DpcsServed.step {choice : IrqChoice θ δ} (hm : m.Ordered i) (h : m.DpcsServed)
    (hkeeps : InsertedBeforeTest (IrqEvent.step choice, m))
    (hstep : m.step checked i choice = .ok m') : m'.DpcsServed := by
  obtain rfl | ⟨f, rest, op, code, hstack, hcode, hdid⟩ := IrqMachine.step_cases hstep
  · exact h
  obtain ⟨p, hp, hold, hentry, hfits, hleads, hlevels⟩ := hm.next_op hstack hcode
  have hempty := h.empty
  have hsheltered := h.sheltered
  rw [hstack] at hempty hsheltered
  -- a step that is not quiet has no drained frame below
  have hbelow : ¬ op.Quiet → ∀ f' ∈ rest, ¬ Drained f'.code ∧ ¬ QuietFrame f' := by
    intro hop
    refine not_drained_below hsheltered fun hq => hop ?_
    exact hq.2 op (hcode ▸ List.mem_cons_self)
  have htail : QuietFrame f → ∀ op' ∈ code, op'.Quiet :=
    fun hq op' hop' => hq.2 op' (hcode ▸ List.mem_cons_of_mem _ hop')
  have hplain : ∀ (q : IrqPoint) (processor : Processor), q.tested = false →
      Levels i f.entry q code →
      (m.noDpc = false → DISPATCH_LEVEL ≤ processor.CurrentIrql) →
      (m.next f code rest processor).DpcsServed :=
    fun q processor hq hlevels' hhigh =>
      h.go hstack _ hhigh (fun hd => absurd hd (hlevels'.not_drained hq)) htail
  cases hdid with
  | skip hskips =>
    refine hplain ⟨p.irql, p.mask, false⟩ _ rfl ?_ h.high
    cases op <;> first | exact hlevels | exact hskips.elim
  | @call _ routine hop hcheck =>
    refine ⟨h.high, List.forall_mem_cons.mpr ⟨?_, h.empty⟩, ?_, h.suspended⟩
    · intro hd
      cases routine <;> exact hd.elim
    · rw [hstack]
      refine List.isChain_cons_cons.mpr ⟨?_, hsheltered⟩
      rintro (hd | hq)
      · rw [hcode] at hd
        rcases hop with rfl | ⟨v, d, arg1, arg2, rfl, -⟩
        · exact hd.elim
        · exact hd.elim
      · rcases hop with rfl | ⟨v, d, arg1, arg2, rfl, rfl⟩
        · exact (hq.2 .work (hcode ▸ List.mem_cons_self)).elim
        · -- an interrupt routine inserts above `DISPATCH_LEVEL`
          have hcur : m.processor.CurrentIrql > DISPATCH_LEVEL := assert_eq_ok.mp hcheck
          refine ⟨hcur.le, fun op hop => ?_⟩
          simp only [IrqCall.code, List.mem_cons, List.not_mem_nil, or_false] at hop
          rcases hop with rfl | rfl | rfl | rfl <;> exact trivial
  | release v =>
    have hnext := hplain ⟨p.irql, p.mask, false⟩ m.processor rfl hlevels h.high
    exact ⟨hnext.high, hnext.empty, hnext.sheltered, hnext.suspended⟩
  | leave hop =>
    exact ⟨h.high, (List.forall_mem_cons.mp hempty).2, hsheltered.of_cons, h.suspended⟩
  | @raise target hle =>
    refine h.go hstack _ h.high (fun hd => absurd hd ?_) fun hq => hq.raise hcode
    exact (levels_raiseCode hle hleads hlevels).not_drained rfl
  | raiseMask store c target =>
    cases store with
    | copy => exact hplain ⟨p.irql, target.level, false⟩ _ rfl hlevels h.high
    | master => exact hplain ⟨p.irql, p.mask, false⟩ _ rfl hlevels h.high
    | slave => exact hplain ⟨p.irql, p.mask, false⟩ _ rfl hlevels h.high
  | raiseStore c target =>
    refine hplain (.at target.level) _ rfl hlevels fun _ => ?_
    show DISPATCH_LEVEL ≤ target.level
    cases target
    · decide
    · decide
  | lower hle =>
    refine h.go hstack _ h.high (fun hd => absurd hd ?_) fun hq => hold ▸ hq.lower hcode
    rw [hold]
    exact (levels_lowerCode (hp ▸ hentry) hleads hlevels).not_drained rfl
  | lowerStore c old =>
    obtain ⟨-, hirql, hle, -⟩ := hfits
    refine hplain ⟨old, c, false⟩ _ rfl hlevels fun hpending => ?_
    by_contra hlow
    have hlow' : old < DISPATCH_LEVEL := Nat.lt_of_not_le hlow
    have hc : DISPATCH_LEVEL ≤ c := by
      have hhigh := h.high hpending
      omega
    -- the routine is drained, so nothing is pending
    have hd : Drained f.code := by
      rw [hcode]
      exact ⟨hlow', hc⟩
    have hnone := hempty f List.mem_cons_self hd
    rw [hpending] at hnone
    cases hnone
  | lowerMask store c old =>
    cases store with
    | copy => exact hplain (.at old) _ rfl hlevels h.high
    | master => exact hplain ⟨p.irql, p.mask, false⟩ _ rfl hlevels h.high
    | slave => exact hplain ⟨p.irql, p.mask, false⟩ _ rfl hlevels h.high
  | drained hnone => exact h.go hstack _ h.high (fun _ => hnone) htail
  | pending hsome =>
    have hcur := h.high hsome
    refine ⟨h.high, ?_, ?_, h.suspended⟩
    · refine List.forall_mem_cons.mpr ⟨fun hd => hd.elim, List.forall_mem_cons.mpr ⟨?_, ?_⟩⟩
      · exact fun hd => hd.elim
      · exact (List.forall_mem_cons.mp hempty).2
    · refine List.isChain_cons_cons.mpr ⟨?_, ?_⟩
      · rintro (hd | hq)
        · exact hd.elim
        · exact (hq.2 .work (List.mem_cons_of_mem _ List.mem_cons_self)).elim
      · cases rest with
        | nil => exact .singleton _
        | cons f' rest =>
          refine List.isChain_cons_cons.mpr ⟨fun hf' => ?_, (List.isChain_cons_cons.mp hsheltered).2⟩
          have hnot := hbelow (fun hq => hq) f' List.mem_cons_self
          exact absurd hf' (not_or.mpr hnot)
  | take hop hnone =>
    have hlevels' : Levels i f.entry ⟨p.irql, p.mask, false⟩ code := by
      rcases hop with rfl | ⟨d, rfl⟩
      · exact hlevels
      · exact hlevels
    have hnext := hplain ⟨p.irql, p.mask, false⟩ m.processor rfl hlevels' h.high
    refine ⟨fun hpending => h.high ?_, fun f' hf' hd => hnone (hnext.empty f' hf' hd),
      hnext.sheltered, hnext.suspended⟩
    by_contra hnot
    have htrue : m.noDpc = true := by simpa using hnot
    have hlast := hnone htrue
    rw [IrqMachine.noDpc, hlast] at hpending
    cases hpending
  | insert d arg1 arg2 dpcs =>
    have hnext := hplain ⟨p.irql, p.mask, false⟩ m.processor rfl hlevels h.high
    have hnextOp : m.nextOp = some (.insertDpc d arg1 arg2) := by
      rw [IrqMachine.nextOp, hstack]
      simp [hcode]
    have hnot := hkeeps choice d arg1 arg2 rfl hnextOp
    rw [hstack] at hnot
    refine ⟨fun _ => ?_, ?_, hnext.sheltered, hnext.suspended⟩
    · show DISPATCH_LEVEL ≤ m.processor.CurrentIrql
      rw [← hp, hfits.2]
      decide
    · refine List.forall_mem_cons.mpr ⟨fun hd => ?_, fun f' hf' hd => ?_⟩
      · exact absurd hd (Levels.not_drained hlevels rfl)
      · exact absurd hd ((List.forall_mem_cons.mp hnot).2 f' hf')
  | switchTo t =>
    have hnot := hbelow fun hq => hq
    have hself : ({ f with code := code } :: rest).IsChain Shelters
        ∧ ∀ f' ∈ { f with code := code } :: rest, ¬ Drained f'.code := by
      refine ⟨?_, List.forall_mem_cons.mpr ⟨?_, fun f' hf' => (hnot f' hf').1⟩⟩
      · cases rest with
        | nil => exact .singleton _
        | cons f' rest =>
          refine List.isChain_cons_cons.mpr ⟨fun hf' => ?_, (List.isChain_cons_cons.mp hsheltered).2⟩
          exact absurd hf' (not_or.mpr (hnot f' List.mem_cons_self))
      · exact hlevels.not_drained rfl
    have hall : ∀ u,
        (Function.update m.suspended m.current ({ f with code := code } :: rest) u).IsChain Shelters
        ∧ ∀ f' ∈ Function.update m.suspended m.current ({ f with code := code } :: rest) u,
          ¬ Drained f'.code := by
      intro u
      by_cases hu : u = m.current
      · subst hu
        simpa only [Function.update_self] using hself
      · simpa only [Function.update_of_ne hu] using h.suspended u
    exact ⟨h.high, fun f' hf' hd => absurd hd ((hall t).2 f' hf'), (hall t).1, hall⟩

omit [DecidableEq δ] in
/-- **A delivery keeps the DPCs served.** -/
theorem IrqMachine.DpcsServed.deliver (hm : m.Ordered i) (h : m.DpcsServed) {v : Nat}
    (hdeliver : m.deliver checked i v = .ok m') : m'.DpcsServed := by
  obtain ⟨irql, -, hge, -, -, rfl⟩ := IrqMachine.deliver_spec hdeliver
  refine ⟨fun hpending => ?_, List.forall_mem_cons.mpr ⟨fun hd => hd.elim, h.empty⟩, ?_, h.suspended⟩
  · have hhigh := h.high hpending
    show DISPATCH_LEVEL ≤ Processor.CurrentIrql _
    split
    · exact hhigh.trans hge
    · exact hhigh
  · cases hstack : m.stack with
    | nil => exact .singleton _
    | cons f rest =>
      have hsheltered := h.sheltered
      rw [hstack] at hsheltered
      refine List.isChain_cons_cons.mpr ⟨fun hf => ⟨?_, fun op hop => ?_⟩, hsheltered⟩
      · show DISPATCH_LEVEL ≤ m.processor.CurrentIrql
        obtain ⟨⟨p, hp, hframe⟩, -⟩ := hm.top hstack
        rcases hf with hd | hq
        · have hlevels := hframe.levels
          cases hcode : f.code with
          | nil =>
            rw [hcode] at hd
            exact hd.elim
          | cons op code =>
            rw [hcode] at hd hlevels
            cases op with
            | lowerStore c old =>
              have hirql : p.irql = c := hlevels.1.2.1
              have hc := hd.2
              omega
            | _ => exact hd.elim
        · have hentry := hframe.entry
          have hlow := hq.1
          omega
      · simp only [List.mem_cons, List.not_mem_nil, or_false] at hop
        rcases hop with rfl | rfl | rfl | rfl <;> exact trivial

omit [DecidableEq θ] [DecidableEq δ] in
/-- The start. -/
theorem IrqMachine.Start.dpcsServed (h : m.Start i) : m.DpcsServed := by
  have hnone : m.noDpc = true := h.dpcs
  refine ⟨fun hpending => ?_, fun _ _ _ => hnone, ?_, fun t => ?_⟩
  · rw [hnone] at hpending
    cases hpending
  · rw [h.stack]
    exact .singleton _
  · rw [h.suspended t]
    exact ⟨.singleton _, List.forall_mem_cons.mpr ⟨fun hd => hd, fun f hf => absurd hf List.not_mem_nil⟩⟩

/-- **Along a run whose insertions meet the condition the DPCs are served.** -/
theorem IrqMachine.dpcsServed_of_run (hi : i.Valid) {t : List (IrqEvent θ δ × IrqMachine θ δ)}
    (h : (irqSystem θ δ checked i).Run t m) (hkeeps : ∀ l ∈ t, InsertedBeforeTest l) :
    m.DpcsServed := by
  revert hkeeps
  refine h.invariant (I := fun t m => (∀ l ∈ t, InsertedBeforeTest l) → m.DpcsServed)
    (fun m hm _ => hm.dpcsServed) ?_
  rintro t m ⟨e, _⟩ m' hrun hm ⟨rfl, hen, hstep⟩ hall
  have hinv := hm fun l hl => hall l (List.mem_cons_of_mem _ hl)
  have hordered := IrqMachine.ordered_of_run hi hrun
  cases e with
  | deliver v => exact hinv.deliver hordered hstep
  | step choice => exact hinv.step hordered (hall _ List.mem_cons_self) hstep

/-- A thread goes to `DISPATCH_LEVEL` and back; when it has found the DPC list empty, the timer
comes in and queues a DPC. -/
def timerAfterTest : List (IrqEvent Unit Unit) :=
  .step (.call (.raised .dispatch)) :: List.replicate 15 (.step .go)
    ++ .deliver 0x20 :: .step (.call (.insertQueueDpc () 0 0)) :: List.replicate 24 (.step .go)

end KaushOS
