import KaushOS.Lib.Stdio

/-! # Formatting into a buffer (`lib/stdio.c`)

What a format outputs does not depend on the function that it is output to. `vsnprintf` passes one that counts the
characters and stores those for which there is room.

* **`emitted`** — the characters that a format outputs.
* **`vprintf_eq`** — every function gets these characters, one after another.
* **`vsnprintf_emitted`** — what `vsnprintf` returns, and what it stores. -/

namespace KaushOS.Stdio

variable {σ : Type} {output : Char → σ → σ} {aux : σ} {memory : UInt32 → Char} {c : PrintfConversion}
  {args : VaList} {format : Format} {out : List Char} {n p : Nat}

/-! ## Whole formats -/

/-- The text of a string: padding, and the string. -/
def stringText (string : List Char) (c : PrintfConversion) : List Char :=
  let length := wrapInt string.length
  let padCnt := (UInt32.ofInt (c.width - length)).toNat
  (if c.width > length ∧ c.flags.MINUS = false then List.replicate padCnt ' ' else [])
    ++ string.take length.toNat
    ++ if c.width > length ∧ c.flags.MINUS then List.replicate padCnt ' ' else []

/-- **`format_string` outputs that text.** -/
theorem formatString_eq (string : List Char) (c : PrintfConversion) :
    formatString output string c aux = outputText output (stringText string c) aux := by
  simp only [formatString, stringText, outputText_append, outputDup_ite]

/-- **A conversion outputs what it lets collect.** -/
theorem convert_eq (ch : Char) :
    convert output memory ch c args aux
      = (convert collect memory ch c args []).map fun r => (r.1, outputText output r.2 aux) := by
  unfold convert
  split_ifs
  all_goals
    first
    | rfl
    | simp only [formatInteger_eq, formatString_eq, outputText_collect, List.nil_append, Option.map_some]

/-- **What a format outputs** is what it lets collect, for any function. -/
theorem vprintf_eq :
    vprintf output memory n format p args aux
      = (vprintf collect memory n format p args []).map fun out => outputText output out aux := by
  -- induction on the number of steps; the rest of a format goes on behind any text
  induction n generalizing σ output format p args aux with
  | zero => rfl
  | succ n ih =>
    have hrest : ∀ (format : Format) (p : Nat) (args : VaList) (text : List Char),
        vprintf output memory n format p args (outputText output text aux)
          = (vprintf collect memory n format p args text).map fun out => outputText output out aux := by
      intro format p args text
      have hcollected : vprintf collect memory n format p args text = _ := ih
      rw [ih, hcollected]
      cases vprintf collect memory n format p args [] with
      | error e => rfl
      | ok out =>
        refine congrArg Except.ok ?_
        dsimp only
        rw [outputText_collect, outputText_append]
    rw [vprintf, vprintf]
    cases fetch format p with
    | error e => rfl
    | ok ch =>
      simp only [kernel_ok_bind]
      by_cases hnul : ch = '\x00'
      · rw [if_pos hnul, if_pos hnul]
        rfl
      rw [if_neg hnul, if_neg hnul]
      by_cases hliteral : ch ≠ '%'
      · rw [if_pos hliteral, if_pos hliteral]
        exact hrest format (p + 1) args [ch]
      rw [if_neg hliteral, if_neg hliteral]
      cases fetch format (p + 1) with
      | error e => rfl
      | ok ch =>
        simp only [kernel_ok_bind]
        by_cases hpercent : ch = '%'
        · rw [if_pos hpercent, if_pos hpercent]
          exact hrest format (p + 2) args ['%']
        rw [if_neg hpercent, if_neg hpercent]
        cases parseConversion format n (p + 1) args with
        | error e => rfl
        | ok parsed =>
          obtain ⟨p, c, args⟩ := parsed
          simp only [kernel_ok_bind]
          cases fetch format p with
          | error e => rfl
          | ok ch =>
            simp only [kernel_ok_bind]
            rw [convert_eq]
            cases convert collect memory ch c args [] with
            | some r => exact hrest format (p + 1) r.1 r.2
            | none =>
              dsimp only [Option.map_none]
              have hmessage := hrest (literal (unsupportedText ch)) 0 (characterArgument ch) []
              rw [outputText, List.foldl_nil] at hmessage
              rw [hmessage]
              cases vprintf collect memory n (literal (unsupportedText ch)) 0 (characterArgument ch) [] with
              | error e => rfl
              | ok message => exact hrest format (p + 1) args message

/-- **The characters that a format outputs**, if it comes to its end. -/
def emitted (memory : UInt32 → Char) (n : Nat) (format : Format) (args : VaList) : Kernel (List Char) :=
  vprintf collect memory n format 0 args []

/-! ## The buffer -/

/-- **`vsnprintf` returns the length of what a format outputs**, and stores as many characters as there is room for
in front of a NUL. -/
theorem vsnprintf_emitted (buffer : Nat → Char) (bufSize : UInt32) (h : emitted memory n format args = .ok out)
    (hout : out.length < 2 ^ 31) (hsize : bufSize.toNat < 2 ^ 31) :
    ∃ buffer', vsnprintf memory n buffer bufSize format args = .ok (out.length, buffer')
      ∧ (0 < bufSize.toNat →
        (∀ i < min out.length (bufSize.toNat - 1), out[i]? = some (buffer' i))
        ∧ buffer' (min out.length (bufSize.toNat - 1)) = '\x00'
        ∧ ∀ i > min out.length (bufSize.toNat - 1), buffer' i = buffer i)
      ∧ (bufSize.toNat = 0 → buffer' = buffer) := by
  have hpos : bufSize > 0 ↔ 0 < bufSize.toNat := UInt32.lt_iff_toNat_lt
  -- the characters that fit
  have hmax : (if bufSize > 0 then wrapInt (bufSize - 1).toNat else 0) = (bufSize.toNat - 1 : Nat) := by
    by_cases hzero : bufSize > 0
    · have hsub : (bufSize - 1).toNat = bufSize.toNat - 1 := by
        rw [UInt32.toNat_sub_of_le _ _ (by rw [UInt32.le_iff_toNat_le]; exact hpos.mp hzero)]
        rfl
      rw [if_pos hzero, hsub, wrapInt, Int.bmod_eq_of_le (by omega) (by omega)]
    · rw [if_neg hzero]
      rw [hpos] at hzero
      omega
  have hprint : vprintf vsnprintfHelper memory n format 0 args ⟨buffer, 0, 0, (bufSize.toNat - 1 : Nat)⟩
      = .ok ⟨fun i => if i < min out.length (bufSize.toNat - 1) then out.getD i '\x00' else buffer i,
          min out.length (bufSize.toNat - 1), out.length, (bufSize.toNat - 1 : Nat)⟩ := by
    have hall : outputText vsnprintfHelper out
        ⟨buffer, min 0 (bufSize.toNat - 1), (0 : Nat), (bufSize.toNat - 1 : Nat)⟩ = _ := helper_outputText (by omega)
    rw [vprintf_eq, show vprintf collect memory n format 0 args [] = .ok out from h]
    refine congrArg Except.ok ?_
    simpa using hall
  have hrun : vsnprintf memory n buffer bufSize format args = .ok (out.length,
      if bufSize > 0 then
        Function.update (fun i => if i < min out.length (bufSize.toNat - 1) then out.getD i '\x00' else buffer i)
          (min out.length (bufSize.toNat - 1)) '\x00'
      else fun i => if i < min out.length (bufSize.toNat - 1) then out.getD i '\x00' else buffer i) := by
    rw [vsnprintf, hmax]
    dsimp only
    rw [hprint, kernel_ok_bind]
    rfl
  refine ⟨_, hrun, fun hzero => ⟨fun i hi => ?_, ?_, fun i hi => ?_⟩, fun hzero => ?_⟩
  · rw [if_pos (hpos.mpr hzero), Function.update_of_ne (by omega), if_pos hi, List.getD_eq_getElem?_getD,
      List.getElem?_eq_getElem (by omega), Option.getD_some]
  · rw [if_pos (hpos.mpr hzero), Function.update_self]
  · rw [if_pos (hpos.mpr hzero), Function.update_of_ne (by omega), if_neg (by omega)]
  · rw [if_neg (by rw [hpos]; omega)]
    funext i
    rw [if_neg (by omega)]

/-- Eight characters for a buffer of four bytes. -/
theorem vsnprintf_emitted_cut : ∃ buffer',
    vsnprintf (fun _ => '?') 20 (fun _ => '?') 4 (literal "%d items".toList) (fun _ => 42) = .ok (8, buffer')
      ∧ ['4', '2', ' ', '\x00', '?'] = (List.range 5).map buffer' := by
  have hemitted : emitted (fun _ => '?') 20 (literal "%d items".toList) (fun _ => 42) = .ok "42 items".toList := by
    decide +kernel
  obtain ⟨buffer', hrun, hstored, -⟩ :=
    vsnprintf_emitted (fun _ => '?') 4 hemitted (by decide) (by decide)
  obtain ⟨hcharacters, hnul, hrest⟩ := hstored (by decide)
  have hfour : ∀ i < 3, "42 items".toList[i]? = some (buffer' i) := hcharacters
  refine ⟨buffer', hrun, ?_⟩
  have hend : buffer' 3 = '\x00' := hnul
  have hbehind : buffer' 4 = '?' := hrest 4 (by decide)
  have hfirst := hfour 0 (by omega)
  have hsecond := hfour 1 (by omega)
  have hthird := hfour 2 (by omega)
  simp [List.range, List.range.loop] at hfirst hsecond hthird ⊢
  exact ⟨hfirst, hsecond, hthird, hend.symm, hbehind.symm⟩

end KaushOS.Stdio
