import KaushOS.Lib.Stdio

/-! # Scanning a format (`lib/stdio.c`)

The cursor of `__vprintf` and `parse_conversion` goes over flags, a width, a precision and a type to the character of
a conversion, and one character further, whatever this character is.

* **`At`** — where the rest of a format stands.
* **`afterOptions`** — a text behind the options of a conversion.
* **`Complete`** — every conversion of a text has a character.
* **`vprintf_complete`**, **`vprintf_incomplete`** — what the scan of a text does.
* **`format_scan_iff`** — when it stays inside of the format. -/

namespace KaushOS.Stdio

variable {α σ : Type} {output : Char → σ → σ} {aux : σ} {memory : UInt32 → Char} {format : Format} {p n : Nat}
  {ch : Char} {t rest text : List Char}

/-! ## The rest of a format -/

/-- **The characters `t` stand at offset `p`**, with a NUL behind them. What is behind the NUL does not matter. -/
def At (format : Format) (p : Nat) (t : List Char) : Prop := ∀ i ≤ t.length, format (p + i) = literal t i

/-- A literal begins with its characters. -/
theorem At.literal (t : List Char) : At (literal t) 0 t := fun i _ => by rw [Nat.zero_add]

/-- The next character. -/
theorem At.fetch (h : At format p (ch :: t)) : fetch format p = .ok ch := by
  have hfirst := h 0 (Nat.zero_le _)
  rw [Stdio.fetch, ← Nat.add_zero p, hfirst]
  rfl

/-- The NUL. -/
theorem At.fetch_nil (h : At format p []) : Stdio.fetch format p = .ok '\x00' := by
  have hfirst := h 0 (Nat.zero_le _)
  rw [Stdio.fetch, ← Nat.add_zero p, hfirst]
  rfl

/-- The cursor is advanced by one character. -/
theorem At.next (h : At format p (ch :: t)) : At format (p + 1) t := by
  intro i hi
  have hnext := h (i + 1) (by simpa using hi)
  rw [Nat.add_assoc, Nat.add_comm 1 i, hnext]
  rfl

/-- The next character, if there is one, and the NUL otherwise. -/
theorem At.fetch_head (h : At format p t) : Stdio.fetch format p = .ok (t.head?.getD '\x00') := by
  cases t with
  | nil => exact h.fetch_nil
  | cons ch t => exact h.fetch

/-- It is a certain one. -/
theorem head_eq_iff (hch : ch ≠ '\x00') : t.head?.getD '\x00' = ch ↔ t.head? = some ch := by
  cases t with
  | nil => simpa using hch.symm
  | cons c t => simp

/-- The cursor is advanced behind a certain character. -/
theorem At.tail (h : At format p t) (hch : t.head? = some ch) : At format (p + 1) t.tail := by
  cases t with
  | nil => cases hch
  | cons c t => exact h.next

/-- The first NUL of a literal is its last character. -/
theorem literal_nul (hnul : '\x00' ∉ text) (h : Stdio.literal text p = some '\x00') : text.length ≤ p := by
  by_contra hlt
  rw [Stdio.literal, List.getElem?_append_left (by omega)] at h
  exact hnul (List.mem_of_getElem? h)

/-- Behind the NUL of a literal there is nothing. -/
theorem literal_end (hp : text.length < p) : Stdio.literal text p = none := by
  rw [Stdio.literal, List.getElem?_eq_none (by rw [List.length_append, List.length_singleton]; omega)]

/-- A literal ends at its NUL. -/
theorem At.fetch_end (h : At (Stdio.literal text) p []) (hnul : '\x00' ∉ text) :
    Stdio.fetch (Stdio.literal text) (p + 1) = .error .nullPointer := by
  have hend := literal_nul hnul (h 0 (Nat.zero_le _))
  rw [Stdio.fetch, literal_end (by omega)]
  rfl

/-- In front of its end there is none. -/
theorem At.ne_nul (h : At (Stdio.literal text) p (ch :: t)) (hnul : '\x00' ∉ text) : ch ≠ '\x00' := by
  rintro rfl
  have hend := literal_nul hnul (h 0 (Nat.zero_le _))
  have hnext := h 1 (by simp)
  rw [literal_end (by omega), Stdio.literal, List.cons_append, List.getElem?_cons_succ] at hnext
  cases t <;> cases hnext

/-! ## Parts of a conversion -/

/-- **A part of the scan reads `t` up to `rest`** and gives `a`, wherever `t` stands in a format. -/
def Reads (scan : Format → Nat → Nat → Kernel (Nat × α)) (t rest : List Char) (a : α) : Prop :=
  rest.length ≤ t.length ∧ ∀ format n p, At format p t → t.length < n →
    ∃ p', scan format n p = .ok (p', a) ∧ At format p' rest

/-- A scan that does the same on `t`. -/
theorem Reads.congr {scan scan' : Format → Nat → Nat → Kernel (Nat × α)} {a : α} (h : Reads scan t rest a)
    (heq : ∀ format n p, At format p t → scan' format n p = scan format n p) : Reads scan' t rest a := by
  refine ⟨h.1, fun format n p hat hn => ?_⟩
  rw [heq format n p hat]
  exact h.2 format n p hat hn

/-- The flags. -/
def isFlag (c : Char) : Bool := c ∈ ['-', '+', ' ', '#', '0', '\'']

/-- The flags that a text begins with are added. -/
def flagsOf (t : List Char) (flags : Flags) : Flags :=
  (t.takeWhile isFlag).foldl (fun flags c => (flags.add c).getD flags) flags

/-- The digits that a text begins with are read. -/
def digitsOf (t : List Char) (number : Int) : Int :=
  (t.takeWhile isdigit).foldl (fun number c => wrapInt (number * 10 + c.toNat - '0'.toNat)) number

/-- The number that a text begins with, or the one among the arguments for a `*`. -/
def numberOf (t : List Char) (args : VaList) : Int × VaList :=
  if t.head? = some '*' then (asInt (args 0), args.drop 1) else (digitsOf t 0, args)

/-- A text behind a number or a `*`. -/
def afterNumber (t : List Char) : List Char := if t.head? = some '*' then t.tail else t.dropWhile isdigit

/-- The precision that a text begins with, or that there is none. -/
def precisionOf (t : List Char) (args : VaList) : Int × VaList :=
  if t.head? = some '.' then
    let (precision, args) := numberOf t.tail args
    (if precision < 0 then -1 else precision, args)
  else (-1, args)

/-- A text behind a precision, if there is one. -/
def afterPrecision (t : List Char) : List Char := if t.head? = some '.' then afterNumber t.tail else t

/-- **The type that a text begins with**, and the text behind it. -/
def typeOf (t : List Char) : ArgumentType × List Char :=
  if t.head? = some 'h' then
    if t.tail.head? = some 'h' then (.CHARTYPE, t.tail.tail) else (.SHORTTYPE, t.tail)
  else if t.head? = some 'j' then (.INTTYPEMAX, t.tail)
  else if t.head? = some 'l' then
    if t.tail.head? = some 'l' then (.LONGLONGTYPE, t.tail.tail) else (.LONGTYPE, t.tail)
  else if t.head? = some 't' then (.PTRDIFFT, t.tail)
  else if t.head? = some 'z' then (.SIZET, t.tail)
  else (.INTTYPE, t)

/-- **A text behind the options of a conversion**: it begins with the character of the conversion. -/
def afterOptions (t : List Char) : List Char := (typeOf (afterPrecision (afterNumber (t.dropWhile isFlag)))).2

/-- **The conversion that a text begins with**, and the arguments behind those for `*`. -/
def conversionOf (t : List Char) (args : VaList) : PrintfConversion × VaList :=
  let (width, args) := numberOf (t.dropWhile isFlag) args
  let (flags, width) := fieldWidth (flagsOf t noFlags).normalize width
  let (precision, args) := precisionOf (afterNumber (t.dropWhile isFlag)) args
  let type := (typeOf (afterPrecision (afterNumber (t.dropWhile isFlag)))).1
  (⟨{ flags with ZERO := flags.ZERO && decide (precision < 0) }, width, precision, type⟩, args)

/-- A character is a flag if it adds one. -/
theorem add_isSome (flags : Flags) (c : Char) : (flags.add c).isSome = isFlag c := by
  unfold Flags.add
  split_ifs <;> simp_all [isFlag]

/-- **The loop over the flags.** -/
theorem flagLoop_reads (t : List Char) (flags : Flags) :
    Reads (fun format n p => flagLoop format n p flags) t (t.dropWhile isFlag) (flagsOf t flags) := by
  induction t generalizing flags with
  | nil =>
    refine ⟨le_rfl, fun format n p h hn => ⟨p, ?_, h⟩⟩
    obtain ⟨n, rfl⟩ : ∃ m, n = m + 1 := ⟨n - 1, by simp at hn; omega⟩
    dsimp only
    rw [flagLoop, h.fetch_nil, kernel_ok_bind]
    rfl
  | cons c t ih =>
    have hflag := add_isSome flags c
    cases hadd : flags.add c with
    | none =>
      rw [hadd, Option.isSome_none] at hflag
      have hnot : ¬ isFlag c = true := by rw [← hflag]; simp
      rw [flagsOf, List.dropWhile_cons_of_neg hnot, List.takeWhile_cons_of_neg hnot]
      refine ⟨le_rfl, fun format n p h hn => ⟨p, ?_, h⟩⟩
      obtain ⟨n, rfl⟩ : ∃ m, n = m + 1 := ⟨n - 1, by simp at hn; omega⟩
      dsimp only
      rw [flagLoop, h.fetch, kernel_ok_bind, hadd]
      rfl
    | some flags₁ =>
      rw [hadd, Option.isSome_some] at hflag
      rw [flagsOf, List.dropWhile_cons_of_pos hflag.symm, List.takeWhile_cons_of_pos hflag.symm, List.foldl_cons, hadd]
      obtain ⟨hle, hread⟩ := ih flags₁
      refine ⟨Nat.le_succ_of_le hle, fun format n p h hn => ?_⟩
      obtain ⟨n, rfl⟩ : ∃ m, n = m + 1 := ⟨n - 1, by simp at hn; omega⟩
      obtain ⟨p', hrun, hrest⟩ := hread format n (p + 1) h.next (by simpa using hn)
      refine ⟨p', ?_, hrest⟩
      dsimp only
      rw [flagLoop, h.fetch, kernel_ok_bind, hadd]
      exact hrun

/-- **The loop over the digits of a number.** -/
theorem numberLoop_reads (t : List Char) (number : Int) :
    Reads (fun format n p => numberLoop format n p number) t (t.dropWhile isdigit) (digitsOf t number) := by
  induction t generalizing number with
  | nil =>
    refine ⟨le_rfl, fun format n p h hn => ⟨p, ?_, h⟩⟩
    obtain ⟨n, rfl⟩ : ∃ m, n = m + 1 := ⟨n - 1, by simp at hn; omega⟩
    dsimp only
    rw [numberLoop, h.fetch_nil, kernel_ok_bind]
    rfl
  | cons c t ih =>
    by_cases hdigit : isdigit c = true
    · rw [digitsOf, List.dropWhile_cons_of_pos hdigit, List.takeWhile_cons_of_pos hdigit, List.foldl_cons]
      obtain ⟨hle, hread⟩ := ih (wrapInt (number * 10 + c.toNat - '0'.toNat))
      refine ⟨Nat.le_succ_of_le hle, fun format n p h hn => ?_⟩
      obtain ⟨n, rfl⟩ : ∃ m, n = m + 1 := ⟨n - 1, by simp at hn; omega⟩
      obtain ⟨p', hrun, hrest⟩ := hread format n (p + 1) h.next (by simpa using hn)
      refine ⟨p', ?_, hrest⟩
      dsimp only
      rw [numberLoop, h.fetch, kernel_ok_bind, if_pos hdigit]
      exact hrun
    · rw [digitsOf, List.dropWhile_cons_of_neg hdigit, List.takeWhile_cons_of_neg hdigit]
      refine ⟨le_rfl, fun format n p h hn => ⟨p, ?_, h⟩⟩
      obtain ⟨n, rfl⟩ : ∃ m, n = m + 1 := ⟨n - 1, by simp at hn; omega⟩
      dsimp only
      rw [numberLoop, h.fetch, kernel_ok_bind, if_neg hdigit]
      rfl

/-- A tail is no longer. -/
theorem tail_le : t.tail.length ≤ t.length := by
  rw [List.length_tail]
  omega

/-- **A number, or a `*`.** -/
theorem parseNumber_reads (t : List Char) (args : VaList) :
    Reads (fun format n p => parseNumber format n p args) t (afterNumber t) (numberOf t args) := by
  by_cases hstar : t.head? = some '*'
  · rw [afterNumber, numberOf, if_pos hstar, if_pos hstar]
    refine ⟨tail_le, fun format n p h hn => ⟨p + 1, ?_, h.tail hstar⟩⟩
    dsimp only
    rw [parseNumber, h.fetch_head, kernel_ok_bind, if_pos ((head_eq_iff (by decide)).mpr hstar)]
    rfl
  · rw [afterNumber, numberOf, if_neg hstar, if_neg hstar]
    obtain ⟨hle, hread⟩ := numberLoop_reads t 0
    refine ⟨hle, fun format n p h hn => ?_⟩
    obtain ⟨p', hrun, hrest⟩ := hread format n p h hn
    refine ⟨p', ?_, hrest⟩
    dsimp only at hrun ⊢
    rw [parseNumber, h.fetch_head, kernel_ok_bind, if_neg fun hno => hstar ((head_eq_iff (by decide)).mp hno), hrun]
    rfl

/-- **A precision**, if there is one. -/
theorem parsePrecision_reads (t : List Char) (args : VaList) :
    Reads (fun format n p => parsePrecision format n p args) t (afterPrecision t) (precisionOf t args) := by
  by_cases hpoint : t.head? = some '.'
  · rw [afterPrecision, precisionOf, if_pos hpoint, if_pos hpoint]
    obtain ⟨hle, hread⟩ := parseNumber_reads t.tail args
    refine ⟨le_trans hle tail_le, fun format n p h hn => ?_⟩
    obtain ⟨p', hrun, hrest⟩ := hread format n (p + 1) (h.tail hpoint) (lt_of_le_of_lt tail_le hn)
    refine ⟨p', ?_, hrest⟩
    dsimp only at hrun ⊢
    rw [parsePrecision, h.fetch_head, kernel_ok_bind, if_pos ((head_eq_iff (by decide)).mpr hpoint), hrun]
    rfl
  · rw [afterPrecision, precisionOf, if_neg hpoint, if_neg hpoint]
    refine ⟨le_rfl, fun format n p h hn => ⟨p, ?_, h⟩⟩
    dsimp only
    rw [parsePrecision, h.fetch_head, kernel_ok_bind, if_neg fun hno => hpoint ((head_eq_iff (by decide)).mp hno)]
    rfl

/-- A type of one character that may be doubled. -/
theorem doubleType_reads (hch : ch ≠ '\x00') (hhead : t.head? = some ch) (one two : ArgumentType) :
    Reads (fun format _ p => do
      let c ← fetch format (p + 1)
      return if c = ch then (p + 2, two) else (p + 1, one)) t
      (if t.tail.head? = some ch then (two, t.tail.tail) else (one, t.tail)).2
      (if t.tail.head? = some ch then (two, t.tail.tail) else (one, t.tail)).1 := by
  by_cases hdouble : t.tail.head? = some ch
  · rw [if_pos hdouble]
    refine ⟨le_trans tail_le tail_le, fun format n p h hn => ⟨p + 2, ?_, (h.tail hhead).tail hdouble⟩⟩
    dsimp only
    rw [(h.tail hhead).fetch_head, kernel_ok_bind, if_pos ((head_eq_iff hch).mpr hdouble)]
    rfl
  · rw [if_neg hdouble]
    refine ⟨tail_le, fun format n p h hn => ⟨p + 1, ?_, h.tail hhead⟩⟩
    dsimp only
    rw [(h.tail hhead).fetch_head, kernel_ok_bind, if_neg fun hno => hdouble ((head_eq_iff hch).mp hno)]
    rfl

/-- A type of one character. -/
theorem singleType_reads (hhead : t.head? = some ch) (type : ArgumentType) :
    Reads (fun _ _ p => .ok (p + 1, type)) t t.tail type :=
  ⟨tail_le, fun _ _ p h _ => ⟨p + 1, rfl, h.tail hhead⟩⟩

/-- **A type**, if there is one. -/
theorem parseType_reads (t : List Char) : Reads (fun format _ p => parseType format p) t (typeOf t).2 (typeOf t).1 := by
  -- the branches go by the first character of `t`
  have hscan : ∀ format p, At format p t → parseType format p
      = if t.head? = some 'h' then do
          let c ← Stdio.fetch format (p + 1)
          return if c = 'h' then (p + 2, .CHARTYPE) else (p + 1, .SHORTTYPE)
        else if t.head? = some 'j' then .ok (p + 1, .INTTYPEMAX)
        else if t.head? = some 'l' then do
          let c ← Stdio.fetch format (p + 1)
          return if c = 'l' then (p + 2, .LONGLONGTYPE) else (p + 1, .LONGTYPE)
        else if t.head? = some 't' then .ok (p + 1, .PTRDIFFT)
        else if t.head? = some 'z' then .ok (p + 1, .SIZET)
        else .ok (p, .INTTYPE) := by
    intro format p h
    rw [parseType, h.fetch_head, kernel_ok_bind]
    have hhead : ∀ c, c ≠ '\x00' → (t.head?.getD '\x00' = c ↔ t.head? = some c) := fun c hc => head_eq_iff hc
    simp only [hhead 'h' (by decide), hhead 'j' (by decide), hhead 'l' (by decide), hhead 't' (by decide),
      hhead 'z' (by decide)]
    rfl
  unfold typeOf
  by_cases hh : t.head? = some 'h'
  · rw [if_pos hh]
    exact (doubleType_reads (by decide) hh .SHORTTYPE .CHARTYPE).congr fun format n p h =>
      (hscan format p h).trans (if_pos hh)
  rw [if_neg hh]
  simp only [if_neg hh] at hscan
  by_cases hj : t.head? = some 'j'
  · rw [if_pos hj]
    exact (singleType_reads hj _).congr fun format n p h => (hscan format p h).trans (if_pos hj)
  rw [if_neg hj]
  simp only [if_neg hj] at hscan
  by_cases hl : t.head? = some 'l'
  · rw [if_pos hl]
    exact (doubleType_reads (by decide) hl .LONGTYPE .LONGLONGTYPE).congr fun format n p h =>
      (hscan format p h).trans (if_pos hl)
  rw [if_neg hl]
  simp only [if_neg hl] at hscan
  by_cases ht : t.head? = some 't'
  · rw [if_pos ht]
    exact (singleType_reads ht _).congr fun format n p h => (hscan format p h).trans (if_pos ht)
  rw [if_neg ht]
  simp only [if_neg ht] at hscan
  by_cases hz : t.head? = some 'z'
  · rw [if_pos hz]
    exact (singleType_reads hz _).congr fun format n p h => (hscan format p h).trans (if_pos hz)
  rw [if_neg hz]
  simp only [if_neg hz] at hscan
  exact ⟨le_rfl, fun format n p h _ => ⟨p, hscan format p h, h⟩⟩

/-- **`parse_conversion`** goes on to the character of the conversion. -/
theorem parseConversion_reads (t : List Char) (args : VaList) :
    Reads (fun format n p => parseConversion format n p args) t (afterOptions t) (conversionOf t args) := by
  obtain ⟨hle₁, hflags⟩ := flagLoop_reads t noFlags
  obtain ⟨hle₂, hwidth⟩ := parseNumber_reads (t.dropWhile isFlag) args
  obtain ⟨hle₃, hprecision⟩ :=
    parsePrecision_reads (afterNumber (t.dropWhile isFlag)) (numberOf (t.dropWhile isFlag) args).2
  obtain ⟨hle₄, htype⟩ := parseType_reads (afterPrecision (afterNumber (t.dropWhile isFlag)))
  refine ⟨hle₄.trans (hle₃.trans (hle₂.trans hle₁)), fun format n p h hn => ?_⟩
  obtain ⟨p₁, hrun₁, h₁⟩ := hflags format n p h hn
  obtain ⟨p₂, hrun₂, h₂⟩ := hwidth format n p₁ h₁ (lt_of_le_of_lt hle₁ hn)
  obtain ⟨p₃, hrun₃, h₃⟩ := hprecision format n p₂ h₂ (lt_of_le_of_lt (hle₂.trans hle₁) hn)
  obtain ⟨p₄, hrun₄, h₄⟩ := htype format n p₃ h₃ (lt_of_le_of_lt (hle₃.trans (hle₂.trans hle₁)) hn)
  refine ⟨p₄, ?_, h₄⟩
  dsimp only at hrun₁ hrun₂ hrun₃ hrun₄ ⊢
  rw [parseConversion, hrun₁, kernel_ok_bind]
  dsimp only
  rw [hrun₂, kernel_ok_bind]
  dsimp only
  rw [hrun₃, kernel_ok_bind]
  dsimp only
  rw [hrun₄]
  rfl

/-! ## Whole texts -/

/-- **Every conversion of a text has a character**: none is cut off by the end of the text. -/
inductive Complete : List Char → Prop
  | nil : Complete []
  | literal {ch : Char} {t : List Char} (hch : ch ≠ '%') (h : Complete t) : Complete (ch :: t)
  | percent {t : List Char} (h : Complete t) : Complete ('%' :: '%' :: t)
  | conversion {ch : Char} {t rest : List Char} (hhead : t.head? ≠ some '%') (hscan : afterOptions t = ch :: rest)
      (h : Complete rest) : Complete ('%' :: t)

/-- The text of the message for a conversion that is not supported. -/
def unsupportedMessage (ch : Char) : List Char :=
  let argument := Char.ofNat ((characterArgument ch 0).toNat % 2 ^ 8)
  if ch = 'f' ∨ ch = 'e' ∨ ch = 'E' ∨ ch = 'g' ∨ ch = 'G' ∨ ch = 'n' then
    "<<no %".toList ++ [argument] ++ " in kernel>>".toList
  else "<<no %".toList ++ [argument] ++ " conversion>>".toList

/-- A conversion without options. -/
def plainConversion : PrintfConversion := ⟨noFlags, 0, -1, .INTTYPE⟩

/-- A character is a string of one character. -/
theorem formatString_character (ch : Char) :
    formatString output [ch] plainConversion aux = outputText output [ch] aux := by
  have hlength : wrapInt 1 = 1 := by decide
  simp [formatString, hlength, plainConversion, noFlags]

/-- **The message is output**; its own format is complete. -/
theorem vprintf_unsupported (k : Nat) (ch : Char) (aux : σ) :
    vprintf output memory (k + 23) (literal (unsupportedText ch)) 0 (characterArgument ch) aux
      = .ok (outputText output (unsupportedMessage ch) aux) := by
  unfold unsupportedText unsupportedMessage
  split_ifs
  · have hformat : vprintf output memory (k + 23) (literal "<<no %%%c in kernel>>".toList) 0 (characterArgument ch) aux
        = .ok (outputText output " in kernel>>".toList (formatString output
          [Char.ofNat ((characterArgument ch 0).toNat % 2 ^ 8)] plainConversion (outputText output "<<no %".toList aux)))
        := rfl
    rw [hformat, formatString_character, outputText_append, outputText_append]
  · have hformat : vprintf output memory (k + 23) (literal "<<no %%%c conversion>>".toList) 0 (characterArgument ch) aux
        = .ok (outputText output " conversion>>".toList (formatString output
          [Char.ofNat ((characterArgument ch 0).toNat % 2 ^ 8)] plainConversion (outputText output "<<no %".toList aux)))
        := rfl
    rw [hformat, formatString_character, outputText_append, outputText_append]

variable (output aux memory) in
/-- **One conversion** is done with what `parse_conversion` gives. -/
theorem vprintf_parsed {args args₁ : VaList} {c : PrintfConversion} (hhead : t.head? ≠ some '%')
    (hparsed : conversionOf t args = (c, args₁)) (hat : At format p ('%' :: t)) (hn : t.length < n) :
    ∃ p', At format p' (afterOptions t)
      ∧ vprintf output memory (n + 1) format p args aux
        = (match convert output memory ((afterOptions t).head?.getD '\x00') c args₁ aux with
          | some (args, aux) => vprintf output memory n format (p' + 1) args aux
          | none =>
            vprintf output memory n (literal (unsupportedText ((afterOptions t).head?.getD '\x00'))) 0
                (characterArgument ((afterOptions t).head?.getD '\x00')) aux >>= fun aux =>
              vprintf output memory n format (p' + 1) args₁ aux) := by
  obtain ⟨p', hrun, hrest⟩ := (parseConversion_reads t args).2 format n (p + 1) hat.next hn
  rw [hparsed] at hrun
  refine ⟨p', hrest, ?_⟩
  dsimp only at hrun
  rw [vprintf, hat.fetch, kernel_ok_bind, if_neg (by decide), if_neg (by simp), hat.next.fetch_head, kernel_ok_bind,
    if_neg fun hno => hhead ((head_eq_iff (by decide)).mp hno), hrun, kernel_ok_bind]
  dsimp only
  rw [hrest.fetch_head]
  exact kernel_ok_bind ..

variable (output memory) in
/-- **One conversion**: the scan goes on one character behind its options, whatever this character is. -/
theorem vprintf_conversion (hhead : t.head? ≠ some '%') (args : VaList) (aux : σ) : ∃ args' aux', ∀ format n p,
    At format p ('%' :: t) → t.length + 23 ≤ n → ∃ p', At format p' (afterOptions t)
      ∧ vprintf output memory (n + 1) format p args aux = vprintf output memory n format (p' + 1) args' aux' := by
  obtain ⟨c, args₁, hparsed⟩ : ∃ c args₁, conversionOf t args = (c, args₁) := ⟨_, _, rfl⟩
  cases hconvert : convert output memory ((afterOptions t).head?.getD '\x00') c args₁ aux with
  | some result =>
    refine ⟨result.1, result.2, fun format n p hat hn => ?_⟩
    obtain ⟨p', hrest, hrun⟩ := vprintf_parsed (n := n) output aux memory hhead hparsed hat (by omega)
    rw [hconvert] at hrun
    exact ⟨p', hrest, hrun⟩
  | none =>
    refine ⟨args₁, outputText output (unsupportedMessage ((afterOptions t).head?.getD '\x00')) aux,
      fun format n p hat hn => ?_⟩
    obtain ⟨k, rfl⟩ : ∃ k, n = k + 23 := ⟨n - 23, by omega⟩
    obtain ⟨p', hrest, hrun⟩ := vprintf_parsed (n := k + 23) output aux memory hhead hparsed hat (by omega)
    rw [hconvert] at hrun
    dsimp only at hrun
    rw [vprintf_unsupported, kernel_ok_bind] at hrun
    exact ⟨p', hrest, hrun⟩

variable (output memory) in
/-- **A complete text is scanned to its NUL.** What comes out does not depend on what is behind it, nor does the number
of steps. -/
theorem vprintf_complete (h : Complete t) (args : VaList) (aux : σ) : ∃ r, ∀ format n p, At format p t →
    t.length + 24 ≤ n → vprintf output memory n format p args aux = .ok r := by
  induction h generalizing args aux with
  | nil =>
    refine ⟨aux, fun format n p hat hn => ?_⟩
    obtain ⟨n, rfl⟩ : ∃ m, n = m + 1 := ⟨n - 1, by omega⟩
    rw [vprintf, hat.fetch_nil, kernel_ok_bind, if_pos rfl]
    rfl
  | @literal ch t hch h ih =>
    by_cases hnul : ch = '\x00'
    · refine ⟨aux, fun format n p hat hn => ?_⟩
      obtain ⟨n, rfl⟩ : ∃ m, n = m + 1 := ⟨n - 1, by omega⟩
      rw [vprintf, hat.fetch, kernel_ok_bind, if_pos hnul]
      rfl
    · obtain ⟨r, hr⟩ := ih args (output ch aux)
      refine ⟨r, fun format n p hat hn => ?_⟩
      obtain ⟨n, rfl⟩ : ∃ m, n = m + 1 := ⟨n - 1, by omega⟩
      rw [List.length_cons] at hn
      rw [vprintf, hat.fetch, kernel_ok_bind, if_neg hnul, if_pos hch]
      exact hr format n (p + 1) hat.next (by omega)
  | @percent t h ih =>
    obtain ⟨r, hr⟩ := ih args (output '%' aux)
    refine ⟨r, fun format n p hat hn => ?_⟩
    obtain ⟨n, rfl⟩ : ∃ m, n = m + 1 := ⟨n - 1, by omega⟩
    rw [List.length_cons, List.length_cons] at hn
    rw [vprintf, hat.fetch, kernel_ok_bind, if_neg (by decide), if_neg (by simp), hat.next.fetch, kernel_ok_bind,
      if_pos rfl]
    exact hr format n (p + 2) hat.next.next (by omega)
  | @conversion ch t rest hhead hscan h ih =>
    obtain ⟨args', aux', hstep⟩ := vprintf_conversion output memory hhead args aux
    obtain ⟨r, hr⟩ := ih args' aux'
    refine ⟨r, fun format n p hat hn => ?_⟩
    obtain ⟨n, rfl⟩ : ∃ m, n = m + 1 := ⟨n - 1, by omega⟩
    obtain ⟨hle, -⟩ := parseConversion_reads t args
    rw [hscan, List.length_cons] at hle
    rw [List.length_cons] at hn
    obtain ⟨p', hrest, hrun⟩ := hstep format n p hat (by omega)
    rw [hrun]
    rw [hscan] at hrest
    exact hr format n (p' + 1) hrest.next (by omega)

/-- **A text with a conversion that is cut off** is scanned across its NUL. -/
theorem vprintf_incomplete (hnul : '\x00' ∉ text) (h : ¬ Complete t) (args : VaList) (aux : σ)
    (hat : At (literal text) p t) (hn : t.length + 24 ≤ n) :
    vprintf output memory n (literal text) p args aux = .error .nullPointer := by
  -- induction on the number of steps, each of which is about the front of what is left
  induction n generalizing t p args aux with
  | zero => omega
  | succ n ih =>
    cases t with
    | nil => exact absurd .nil h
    | cons ch t =>
      rw [List.length_cons] at hn
      by_cases hliteral : ch ≠ '%'
      · rw [vprintf, hat.fetch, kernel_ok_bind, if_neg (hat.ne_nul hnul), if_pos hliteral]
        exact ih (fun hrest => h (.literal hliteral hrest)) _ _ hat.next (by omega)
      obtain rfl := not_ne_iff.mp hliteral
      by_cases hpercent : t.head? = some '%'
      · obtain ⟨t, rfl⟩ : ∃ t', t = '%' :: t' := ⟨t.tail, List.eq_cons_of_mem_head? hpercent⟩
        rw [List.length_cons] at hn
        rw [vprintf, hat.fetch, kernel_ok_bind, if_neg (by decide), if_neg (by simp), hat.next.fetch, kernel_ok_bind,
          if_pos rfl]
        exact ih (fun hrest => h (.percent hrest)) _ _ hat.next.next (by omega)
      · obtain ⟨args', aux', hstep⟩ := vprintf_conversion output memory hpercent args aux
        obtain ⟨p', hrest, hrun⟩ := hstep (literal text) n p hat (by omega)
        rw [hrun]
        cases hscan : afterOptions t with
        | nil =>
          rw [hscan] at hrest
          obtain ⟨n, rfl⟩ : ∃ m, n = m + 1 := ⟨n - 1, by omega⟩
          rw [vprintf, hrest.fetch_end hnul]
          rfl
        | cons ch rest =>
          obtain ⟨hle, -⟩ := parseConversion_reads t args
          rw [hscan] at hrest hle
          rw [List.length_cons] at hle
          refine ih (fun hcomplete => h (.conversion hpercent hscan hcomplete)) _ _ hrest.next ?_
          omega

/-! ## Staying inside of a format -/

/-- **The scan of a text stays inside**: with any memory behind the NUL, or none, it returns the same within a number
of steps that is bounded by the length of the text, of which 24 are for the messages about conversions that are not
supported. -/
def StaysInside (text : List Char) : Prop :=
  ∀ (σ : Type) (output : Char → σ → σ) (memory : UInt32 → Char) (args : VaList) (aux : σ), ∃ r,
    ∀ format : Format, (∀ i ≤ text.length, format i = literal text i) →
      ∀ n ≥ text.length + 24, vprintf output memory n format 0 args aux = .ok r

/-- **The scan of a text stays inside** if and only if no conversion is cut off by its end. -/
theorem format_scan_iff (hnul : '\x00' ∉ text) : StaysInside text ↔ Complete text := by
  constructor
  · intro hinside
    by_contra hcut
    obtain ⟨r, hr⟩ := hinside Unit (fun _ aux => aux) (fun _ => '\x00') (fun _ => 0) ()
    have hrun := hr (literal text) (fun _ _ => rfl) _ le_rfl
    rw [vprintf_incomplete hnul hcut _ _ (.literal text) le_rfl] at hrun
    cases hrun
  · intro hcomplete σ output memory args aux
    obtain ⟨r, hr⟩ := vprintf_complete output memory hcomplete args aux
    refine ⟨r, fun format hformat n hn => hr format n 0 (fun i hi => ?_) hn⟩
    rw [Nat.zero_add]
    exact hformat i hi

/-- A conversion with all options. -/
theorem format_scan_all : StaysInside ['%', '-', '0', '8', '.', '*', 'l', 'l', 'd'] := by
  have hscan : afterOptions ['-', '0', '8', '.', '*', 'l', 'l', 'd'] = ['d'] := by decide
  exact (format_scan_iff (by simp)).mpr (.conversion (by simp) hscan .nil)

/-- **A format that ends behind a `%`** is scanned across its end. -/
theorem format_scan_fails : '\x00' ∉ "100%".toList ∧ ¬ StaysInside "100%".toList := by
  refine ⟨by simp, fun hinside => ?_⟩
  obtain ⟨r, hr⟩ := hinside Unit (fun _ aux => aux) (fun _ => '\x00') (fun _ => 0) ()
  have hrun := hr (literal "100%".toList) (fun _ _ => rfl) 28 (by decide)
  have herror : vprintf (fun _ aux => aux) (fun _ => '\x00') 28 (literal "100%".toList) 0 (fun _ => 0) ()
      = .error .nullPointer := by
    decide +kernel
  rw [herror] at hrun
  cases hrun

end KaushOS.Stdio
