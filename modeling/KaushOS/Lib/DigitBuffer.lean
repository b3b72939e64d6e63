import KaushOS.Library.Grouping
import KaushOS.Lib.Stdio

/-! # The buffer of an integer (`lib/stdio.c`)

`format_integer` stores the digits, the separators between groups of them and the zeros to a buffer of 64 bytes, the
last character first, before it outputs anything. Only the zeros for the precision are counted against its size.

* **`DigitBuffer`** — the buffer; a store behind its end stops the kernel.
* **`formatIntegerStores`** — `format_integer` with this buffer.
* **`digitsText`** — the digits as they are meant to be.
* **`formatIntegerStores_eq`** — the stores stay inside, and `formatInteger` is what comes out.
* **`format_integer_digits`** — what it outputs. -/

namespace KaushOS.Stdio

open Grouping

/-! ## Stores -/

/-- **`buf` and `cp`** of `format_integer`; `cp` is the offset in `buf`. -/
structure DigitBuffer where
  buf : Nat → Char
  cp : Nat

/-- `*cp++ = ch`; there is nothing to store to behind the end of `buf`. -/
def DigitBuffer.store (s : DigitBuffer) (ch : Char) : Kernel DigitBuffer := do
  let cp ← deref (if s.cp < digitBufferSize then some s.cp else none)
  return ⟨Function.update s.buf cp ch, s.cp + 1⟩

/-- The separator in front of a digit, if there is one. -/
def separatorStore (b : IntegerBase) (grouped : Bool) (digitCnt : Nat) (s : DigitBuffer) : Kernel DigitBuffer :=
  if grouped ∧ digitCnt > 0 ∧ digitCnt % b.group = 0 then s.store ',' else .ok s

/-- The loop that accumulates digits. A round stores a character, so no more are made than there are bytes, but for
the last one. -/
def digitStores (b : IntegerBase) (grouped : Bool) : Nat → Nat → Nat → DigitBuffer → Kernel DigitBuffer
  | 0, _, _, _ => .error .endlessLoop
  | n + 1, value, digitCnt, s =>
    if value = 0 then .ok s
    else do
      let s ← separatorStore b grouped digitCnt s
      let s ← s.store (b.digit (value % b.base))
      digitStores b grouped n (value / b.base) (digitCnt + 1) s

/-- The loop that appends zeros to match the precision. -/
def zeroStores (precision : Int) : Nat → DigitBuffer → Kernel DigitBuffer
  | 0, _ => .error .endlessLoop
  | n + 1, s =>
    if s.cp < precision ∧ s.cp < digitBufferSize - 1 then do
      let s ← s.store '0'
      zeroStores precision n s
    else .ok s

/-- The part of `format_integer` that fills the buffer. -/
def storeDigits (value : Nat) (b : IntegerBase) (c : PrintfConversion) (stack : Nat → Char) : Kernel DigitBuffer := do
  let s ← digitStores b c.flags.GROUP (digitBufferSize + 1) value 0 ⟨stack, 0⟩
  let precision := if c.precision < 0 then 1 else c.precision
  let s ← zeroStores precision (digitBufferSize + 1) s
  if c.flags.POUND ∧ b.base = 8 ∧ (s.cp = 0 ∨ s.buf (s.cp - 1) ≠ '0') then s.store '0' else return s

variable {σ : Type} (output : Char → σ → σ)

/-- `while (cp > buf) output(*--cp, aux);` -/
def outputBuffer (buf : Nat → Char) : Nat → σ → σ
  | 0, aux => aux
  | cp + 1, aux => outputBuffer buf cp (output (buf cp) aux)

/-- **`format_integer(value, is_signed, negative, b, c, output, aux)`** with its buffer; `stack` is what is in it. -/
def formatIntegerStores (value : Nat) (isSigned negative : Bool) (b : IntegerBase) (c : PrintfConversion)
    (stack : Nat → Char) (aux : σ) : Kernel σ := do
  let sign := signCharacter c.flags isSigned negative
  let x := if c.flags.POUND ∧ value ≠ 0 then b.x else none
  let s ← storeDigits value b c stack
  let padCnt := (wrapInt (c.width - s.cp - (if x.isSome then 2 else 0) - (if sign.isSome then 1 else 0))).toNat
  let aux := if c.flags.MINUS = false ∧ c.flags.ZERO = false then outputDup output ' ' padCnt aux else aux
  let aux := outputText output sign.toList aux
  let aux := outputText output (x.toList.flatMap fun x => ['0', x]) aux
  let aux := if c.flags.ZERO then outputDup output '0' padCnt aux else aux
  let aux := outputBuffer output s.buf s.cp aux
  return if c.flags.MINUS then outputDup output ' ' padCnt aux else aux

/-! ## The text in the buffer -/

variable {output} {aux : σ} {s : DigitBuffer} {text buf : List Char} {b : IntegerBase} {c : PrintfConversion}
  {grouped : Bool} {value digitCnt n : Nat} {precision : Int}

/-- **The buffer holds a text**, the last character first. -/
def DigitBuffer.Holds (s : DigitBuffer) (text : List Char) : Prop :=
  s.cp = text.length ∧ ∀ i < s.cp, text.reverse[i]? = some (s.buf i)

/-- **A store puts a character in front of the text**, if there is room. -/
theorem DigitBuffer.Holds.store (h : s.Holds text) (hroom : text.length < digitBufferSize) (ch : Char) :
    ∃ s', s.store ch = .ok s' ∧ s'.Holds (ch :: text) := by
  obtain ⟨hcp, hbuf⟩ := h
  refine ⟨⟨Function.update s.buf s.cp ch, s.cp + 1⟩, ?_, ?_, fun i hi => ?_⟩
  · rw [DigitBuffer.store, if_pos (hcp ▸ hroom), deref_some, kernel_ok_bind]
    rfl
  · rw [List.length_cons, hcp]
  · rw [List.reverse_cons]
    dsimp only at hi ⊢
    by_cases hlast : i = s.cp
    · subst hlast
      rw [Function.update_self, List.getElem?_append_right (by rw [List.length_reverse]; omega), List.length_reverse,
        hcp, Nat.sub_self]
      rfl
    · rw [Function.update_of_ne hlast, List.getElem?_append_left (by rw [List.length_reverse]; omega)]
      exact hbuf i (by omega)

/-- The character that was stored last. -/
theorem DigitBuffer.Holds.last (h : s.Holds text) (ch : Char) :
    s.cp = 0 ∨ s.buf (s.cp - 1) ≠ ch ↔ text.head? ≠ some ch := by
  obtain ⟨hcp, hbuf⟩ := h
  cases text with
  | nil => simp [hcp]
  | cons a text =>
    rw [List.length_cons] at hcp
    have hlast := hbuf text.length (by omega)
    rw [List.reverse_cons, List.getElem?_append_right (by rw [List.length_reverse]), List.length_reverse,
      Nat.sub_self] at hlast
    have ha : a = s.buf text.length := Option.some.inj hlast
    rw [hcp, Nat.add_sub_cancel, ← ha]
    simp

/-- **The text is output** from the buffer. -/
theorem DigitBuffer.Holds.outputs (h : s.Holds text) :
    outputBuffer output s.buf s.cp aux = outputText output text aux := by
  obtain ⟨hcp, hbuf⟩ := h
  generalize s.cp = cp at hcp hbuf
  induction text generalizing cp aux with
  | nil =>
    subst hcp
    rfl
  | cons ch text ih =>
    rw [List.length_cons] at hcp
    subst hcp
    have hlast := hbuf text.length (by omega)
    rw [List.reverse_cons, List.getElem?_append_right (by rw [List.length_reverse]), List.length_reverse,
      Nat.sub_self] at hlast
    have hch : ch = s.buf text.length := Option.some.inj hlast
    rw [outputBuffer, ← hch, ih text.length rfl fun i hi => ?_]
    · rfl
    · have hi' := hbuf i (by omega)
      rwa [List.reverse_cons, List.getElem?_append_left (by rw [List.length_reverse]; exact hi)] at hi'

/-! ## The digits -/

/-- Digits with separators, if they are wanted, from the lowest one on; `digitCnt` digits have been stored. -/
def countedDigits (b : IntegerBase) (grouped : Bool) (digitCnt : Nat) (digits : List Char) : List Char :=
  if grouped then separateFrom b.group ',' digitCnt digits else digits

/-- One digit. -/
theorem countedDigits_cons (ch : Char) (digits : List Char) :
    countedDigits b grouped digitCnt (ch :: digits)
      = (if grouped ∧ digitCnt > 0 ∧ digitCnt % b.group = 0 then [','] else [])
        ++ ch :: countedDigits b grouped (digitCnt + 1) digits := by
  cases grouped with
  | false => simp [countedDigits]
  | true => simp [countedDigits, separateFrom]

/-- No digits. -/
theorem countedDigits_nil : countedDigits b grouped digitCnt [] = [] := by
  cases grouped <;> rfl

/-- The characters of the digits, from the lowest one on. -/
def digitCharacters (b : IntegerBase) (value : Nat) : List Char := (Nat.digits b.base value).map b.digit

/-- A value without digits. -/
theorem digitCharacters_zero : digitCharacters b 0 = [] := by
  simp [digitCharacters]

/-- The lowest digit. -/
theorem digitCharacters_pos (hvalue : value ≠ 0) :
    digitCharacters b value = b.digit (value % b.base) :: digitCharacters b (value / b.base) := by
  rw [digitCharacters, Nat.digits_def' b.one_lt (Nat.pos_of_ne_zero hvalue), List.map_cons]
  rfl

/-- **What the loop accumulates.** -/
theorem digitLoop_digits (hn : value ≤ n) :
    digitLoop b grouped n value digitCnt text
      = (countedDigits b grouped digitCnt (digitCharacters b value)).reverse ++ text := by
  induction n generalizing value digitCnt text with
  | zero =>
    obtain rfl := Nat.le_zero.mp hn
    rw [digitLoop, digitCharacters_zero, countedDigits_nil]
    rfl
  | succ n ih =>
    rw [digitLoop]
    by_cases hvalue : value = 0
    · rw [if_pos hvalue, hvalue, digitCharacters_zero, countedDigits_nil]
      rfl
    · have hless : value / b.base ≤ n := by
        have hdiv := Nat.div_lt_self (Nat.pos_of_ne_zero hvalue) b.one_lt
        omega
      rw [if_neg hvalue, ih hless, digitCharacters_pos hvalue, countedDigits_cons]
      by_cases hsep : grouped ∧ digitCnt > 0 ∧ digitCnt % b.group = 0
      · rw [if_pos hsep, if_pos hsep]
        simp
      · rw [if_neg hsep, if_neg hsep]
        simp

/-- **The loop stores what it accumulates**, if there is room for it. -/
theorem digitStores_holds (h : s.Holds text) (hn : (digitCharacters b value).length < n)
    (hroom : (countedDigits b grouped digitCnt (digitCharacters b value)).length + text.length ≤ digitBufferSize) :
    ∃ s', digitStores b grouped n value digitCnt s = .ok s'
      ∧ s'.Holds ((countedDigits b grouped digitCnt (digitCharacters b value)).reverse ++ text) := by
  induction n generalizing value digitCnt s text with
  | zero => omega
  | succ n ih =>
    rw [digitStores]
    by_cases hvalue : value = 0
    · rw [if_pos hvalue, hvalue, digitCharacters_zero, countedDigits_nil]
      exact ⟨s, rfl, h⟩
    · rw [digitCharacters_pos hvalue] at hn hroom ⊢
      rw [countedDigits_cons] at hroom ⊢
      rw [if_neg hvalue]
      rw [List.length_cons] at hn
      rw [List.length_append, List.length_cons] at hroom
      -- the separator
      obtain ⟨s₁, hsep, hholds⟩ : ∃ s₁, separatorStore b grouped digitCnt s = .ok s₁
          ∧ s₁.Holds ((if grouped ∧ digitCnt > 0 ∧ digitCnt % b.group = 0 then [','] else []) ++ text) := by
        rw [separatorStore]
        by_cases hsep : grouped ∧ digitCnt > 0 ∧ digitCnt % b.group = 0
        · rw [if_pos hsep, if_pos hsep]
          exact h.store (by omega) ','
        · rw [if_neg hsep, if_neg hsep]
          exact ⟨s, rfl, h⟩
      have hone : (if grouped ∧ digitCnt > 0 ∧ digitCnt % b.group = 0 then [','] else []).reverse
          = if grouped ∧ digitCnt > 0 ∧ digitCnt % b.group = 0 then [','] else [] := by
        split_ifs <;> rfl
      generalize (if grouped ∧ digitCnt > 0 ∧ digitCnt % b.group = 0 then [','] else []) = separator at *
      obtain ⟨s₂, hdigit, hholds₂⟩ := hholds.store (by rw [List.length_append]; omega) (b.digit (value % b.base))
      obtain ⟨s₃, hrest, hholds₃⟩ : ∃ s₃, digitStores b grouped n (value / b.base) (digitCnt + 1) s₂ = .ok s₃
          ∧ s₃.Holds _ :=
        ih hholds₂ (by omega) (by rw [List.length_cons, List.length_append]; omega)
      refine ⟨s₃, ?_, ?_⟩
      · rw [hsep, kernel_ok_bind, hdigit, kernel_ok_bind, hrest]
      · simpa [hone] using hholds₃

/-- The loop for the precision, if there is room. -/
theorem zeroStores_holds (h : s.Holds text) (hn : digitBufferSize - 1 - text.length < n) :
    ∃ s', zeroStores precision n s = .ok s'
      ∧ s'.Holds (List.replicate (min precision.toNat (digitBufferSize - 1) - text.length) '0' ++ text) := by
  induction n generalizing s text with
  | zero => omega
  | succ n ih =>
    rw [zeroStores]
    by_cases hmore : s.cp < precision ∧ s.cp < digitBufferSize - 1
    · obtain ⟨s₁, hstore, hholds⟩ := h.store (h.1 ▸ by omega) '0'
      obtain ⟨s₂, hrest, hholds₂⟩ := ih hholds (by rw [List.length_cons]; have hcp := h.1; omega)
      refine ⟨s₂, by rw [if_pos hmore, hstore, kernel_ok_bind, hrest], ?_⟩
      have hzeros : min precision.toNat (digitBufferSize - 1) - text.length
          = min precision.toNat (digitBufferSize - 1) - ('0' :: text).length + 1 := by
        rw [List.length_cons]
        have hcp := h.1
        omega
      rw [hzeros, List.replicate_succ']
      simpa using hholds₂
    · have hnone : min precision.toNat (digitBufferSize - 1) - text.length = 0 := by
        have hcp := h.1
        omega
      rw [if_neg hmore, hnone]
      exact ⟨s, rfl, h⟩

/-! ## What is output -/

/-- The tables of `lib/stdio.c`. -/
def baseTables : List IntegerBase := [base_d, base_o, base_x, base_X]

/-- **The digits of a value** as they are meant to be: in groups if that is wanted, with zeros in front of them for the
precision, and with one more zero for the flag `#` and base 8 unless there is one already. -/
def digitsText (value : Nat) (b : IntegerBase) (c : PrintfConversion) : List Char :=
  let digits := (Nat.digits b.base value).map b.digit
  let text := (if c.flags.GROUP then separate b.group ',' digits else digits).reverse
  let precision := if c.precision < 0 then 1 else c.precision
  let text := text.leftpad (min precision.toNat 63) '0'
  if c.flags.POUND ∧ b.base = 8 ∧ text.head? ≠ some '0' then '0' :: text else text

/-- What all tables have. -/
theorem baseTables_bounds (hb : b ∈ baseTables) : 8 ≤ b.base ∧ 3 ≤ b.group := by
  simp only [baseTables, List.mem_cons, List.not_mem_nil, or_false] at hb
  rcases hb with rfl | rfl | rfl | rfl <;> decide

/-- Counting digits from the lowest one on gives the groups. -/
theorem countedDigits_eq (hb : b ∈ baseTables) (digits : List Char) :
    countedDigits b grouped 0 digits = if grouped then separate b.group ',' digits else digits := by
  have hgroup := (baseTables_bounds hb).2
  cases grouped with
  | false => rfl
  | true =>
    rw [countedDigits, if_pos rfl, if_pos rfl, separateFrom_eq (by omega) (Nat.zero_mod _), if_neg (by simp)]
    rfl

/-- **A value of 64 bits has no more than 22 digits**, and 7 separators between them. -/
theorem countedDigits_length (hb : b ∈ baseTables) (hvalue : value < 2 ^ 64) :
    (digitCharacters b value).length ≤ 22 ∧ (countedDigits b grouped 0 (digitCharacters b value)).length ≤ 29 := by
  obtain ⟨hbase, hgroup⟩ := baseTables_bounds hb
  have hdigits : (digitCharacters b value).length ≤ 22 := by
    rw [digitCharacters, List.length_map, Nat.digits_length_le_iff b.one_lt]
    calc value < 2 ^ 64 := hvalue
      _ ≤ 8 ^ 22 := by norm_num
      _ ≤ b.base ^ 22 := Nat.pow_le_pow_left hbase 22
  refine ⟨hdigits, ?_⟩
  rw [countedDigits_eq hb]
  cases grouped with
  | false =>
    rw [if_neg (by simp)]
    omega
  | true =>
    have hseparators : ((digitCharacters b value).length - 1) / b.group ≤ 21 / 3 :=
      Nat.div_le_div (by omega) hgroup (by omega)
    rw [if_pos rfl, length_separate (by omega)]
    omega

/-- **The digits are what they are meant to be.** -/
theorem integerDigits_eq (hb : b ∈ baseTables) : integerDigits value b c = digitsText value b c := by
  simp only [integerDigits, digitsText, digitLoop_digits le_rfl, List.append_nil, countedDigits_eq hb]
  rfl

/-- **The digits are stored**, and every store is inside of the buffer. -/
theorem storeDigits_holds (hb : b ∈ baseTables) (hvalue : value < 2 ^ 64) (stack : Nat → Char) :
    ∃ s, storeDigits value b c stack = .ok s ∧ s.Holds (integerDigits value b c) := by
  have hbounds : (digitCharacters b value).length ≤ 22
      ∧ (countedDigits b c.flags.GROUP 0 (digitCharacters b value)).length ≤ 29 := countedDigits_length hb hvalue
  obtain ⟨hdigits, hlength⟩ := hbounds
  have hempty : (⟨stack, 0⟩ : DigitBuffer).Holds [] := ⟨rfl, fun i hi => absurd hi (Nat.not_lt_zero i)⟩
  have hsize : digitBufferSize = 64 := rfl
  obtain ⟨s₁, hstores, hholds₁⟩ : ∃ s₁, digitStores b c.flags.GROUP (digitBufferSize + 1) value 0 ⟨stack, 0⟩ = .ok s₁
      ∧ s₁.Holds ((countedDigits b c.flags.GROUP 0 (digitCharacters b value)).reverse ++ []) :=
    digitStores_holds hempty (by omega) (by rw [List.length_nil]; omega)
  rw [← digitLoop_digits le_rfl] at hholds₁
  have hshort : (digitLoop b c.flags.GROUP value value 0 []).length ≤ 29 := by
    rw [digitLoop_digits le_rfl, List.append_nil, List.length_reverse]
    exact hlength
  simp only [storeDigits, integerDigits]
  rw [hstores, kernel_ok_bind]
  generalize digitLoop b c.flags.GROUP value value 0 [] = digits at *
  generalize (if c.precision < 0 then 1 else c.precision) = precision
  obtain ⟨s₂, hzeros, hholds₂⟩ : ∃ s₂, zeroStores precision (digitBufferSize + 1) s₁ = .ok s₂ ∧ s₂.Holds _ :=
    zeroStores_holds hholds₁ (by omega)
  rw [hzeros, kernel_ok_bind]
  by_cases hpound : c.flags.POUND = true ∧ b.base = 8 ∧ (s₂.cp = 0 ∨ s₂.buf (s₂.cp - 1) ≠ '0')
  · -- in front of zeros there is none, so that there is room
    have hhead := (hholds₂.last '0').mp hpound.2.2
    rw [if_pos hpound, if_pos ⟨hpound.1, hpound.2.1, hhead⟩]
    refine hholds₂.store ?_ '0'
    cases hzero : min precision.toNat (digitBufferSize - 1) - digits.length with
    | zero =>
      rw [List.replicate_zero, List.nil_append]
      omega
    | succ k =>
      rw [hzero, List.replicate_succ] at hhead
      exact absurd rfl hhead
  · rw [if_neg hpound, if_neg fun hno => hpound ⟨hno.1, hno.2.1, (hholds₂.last '0').mpr hno.2.2⟩]
    exact ⟨s₂, rfl, hholds₂⟩

/-- **`format_integer` with its buffer** is the one that `__vprintf` calls. -/
theorem formatIntegerStores_eq (hb : b ∈ baseTables) (hvalue : value < 2 ^ 64) (isSigned negative : Bool)
    (stack : Nat → Char) :
    formatIntegerStores output value isSigned negative b c stack aux
      = .ok (formatInteger output value isSigned negative b c aux) := by
  obtain ⟨s, hstores, hholds⟩ := storeDigits_holds (c := c) hb hvalue stack
  rw [formatIntegerStores]
  dsimp only
  rw [hstores, kernel_ok_bind, hholds.outputs, hholds.1]
  rfl

/-- **Integer formatting stays inside its digit buffer**: it returns, and between the sign, the prefix and the padding
for the field it outputs the digits of the value. -/
theorem format_integer_digits (value : UInt64) (hb : b ∈ baseTables) (c : PrintfConversion) (isSigned negative : Bool)
    (stack : Nat → Char) (output : Char → σ → σ) (aux : σ) :
    ∃ padCnt, formatIntegerStores output value.toNat isSigned negative b c stack aux
      = .ok (outputText output
          ((if c.flags.MINUS = false ∧ c.flags.ZERO = false then List.replicate padCnt ' ' else [])
            ++ (signCharacter c.flags isSigned negative).toList
            ++ ((if c.flags.POUND ∧ value ≠ 0 then b.x else none).toList.flatMap fun x => ['0', x])
            ++ (if c.flags.ZERO then List.replicate padCnt '0' else [])
            ++ digitsText value.toNat b c
            ++ if c.flags.MINUS then List.replicate padCnt ' ' else []) aux) := by
  have hzero : value.toNat ≠ 0 ↔ value ≠ 0 := by
    rw [ne_eq, ne_eq, ← UInt64.toNat_inj]
    rfl
  rw [formatIntegerStores_eq hb value.toNat_lt, formatInteger_eq, integerText]
  simp only [integerDigits_eq hb, hzero]
  exact ⟨_, rfl⟩

/-- The conversion `%#'llo`. -/
def groupedOctal : PrintfConversion := ⟨{ noFlags with POUND := true, GROUP := true }, 0, -1, .LONGLONGTYPE⟩

/-- The highest value needs the most characters in base 8. -/
theorem format_integer_digits_max : ∃ padCnt,
    formatIntegerStores collect 18446744073709551615 false false base_o groupedOctal (fun _ => '?') []
      = .ok (List.replicate padCnt ' ' ++ "01,777,777,777,777,777,777,777".toList) := by
  have hb : base_o ∈ baseTables := by simp [baseTables]
  obtain ⟨padCnt, hrun⟩ :=
    format_integer_digits 18446744073709551615 hb groupedOctal false false (fun _ => '?') collect []
  have hdigits : digitsText 18446744073709551615 base_o groupedOctal = "01,777,777,777,777,777,777,777".toList := by
    rw [← integerDigits_eq hb]
    decide +kernel
  refine ⟨padCnt, hrun.trans (congrArg Except.ok ?_)⟩
  rw [outputText_collect, UInt64.toNat_ofNat_of_lt (by decide), hdigits]
  simp [groupedOctal, noFlags, signCharacter, base_o]

end KaushOS.Stdio
