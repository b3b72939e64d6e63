import KaushOS.Inc.Assert
import Mathlib.Data.Nat.Digits.Lemmas
import Mathlib.Logic.Function.Basic
import Mathlib.Algebra.Group.Nat.Defs

/-! # Formatted output (`lib/stdio.c`, `lib/string.c`, `inc/string.h`)

A format is memory from a pointer on, of which only the part that is mapped can be read; a pointer into it is an
offset. Arguments are the words on the stack. What is formatted goes character by character to a function
`output`, which works on a state `σ` (the parameter `aux` of the source).

* **`parseConversion`** — the flags, the width, the precision and the type of a conversion.
* **`formatInteger`**, **`formatString`** — one argument.
* **`vprintf`** — a whole format, `__vprintf` in the source.
* **`vsnprintf`** — the characters go to a buffer.

Loops over the format and calls of `__printf` count down a number of steps; a computation that runs out of them
stops with `endlessLoop`. -/

namespace KaushOS.Stdio

/-! ## Machine integers and memory -/

/-- An `int`, after arithmetic that may have left its range. -/
def wrapInt (n : Int) : Int := n.bmod (2 ^ 32)

/-- `va_list`: the words from the next argument on. -/
abbrev VaList := Nat → UInt32

/-- The arguments behind the first `n` words. -/
def VaList.drop (args : VaList) (n : Nat) : VaList := fun i => args (i + n)

/-- A word as an `int`. -/
def asInt (w : UInt32) : Int := wrapInt w.toNat

/-- Two words as a number of 64 bits, the low one first. -/
def doubleWord (args : VaList) : Nat := (args 0).toNat + 2 ^ 32 * (args 1).toNat

/-- The memory of a format, as far as it is mapped. -/
abbrev Format := Nat → Option Char

/-- A string literal with its `'\0'`. -/
def literal (text : List Char) : Format := fun i => (text ++ ['\x00'])[i]?

/-- `*format`. -/
def fetch (format : Format) (p : Nat) : Kernel Char := deref (format p)

/-- `isdigit(c)`. -/
def isdigit (c : Char) : Bool := '0' ≤ c ∧ c ≤ '9'

/-- The characters of the string at `s`, `n` at most. -/
def stringAt (memory : UInt32 → Char) : Nat → UInt32 → List Char
  | 0, _ => []
  | n + 1, s => if memory s = '\x00' then [] else memory s :: stringAt memory n (s + 1)

/-! ## Conversions -/

/-- The flags of a conversion. -/
structure Flags where
  /-- `'-'` -/
  MINUS : Bool
  /-- `'+'` -/
  PLUS : Bool
  /-- `' '` -/
  SPACE : Bool
  /-- `'#'` -/
  POUND : Bool
  /-- `'0'` -/
  ZERO : Bool
  /-- `'\''` -/
  GROUP : Bool
  deriving DecidableEq, Repr

/-- No flags. -/
def noFlags : Flags := ⟨false, false, false, false, false, false⟩

/-- The type of the argument to format. -/
inductive ArgumentType
  /-- `hh` -/
  | CHARTYPE
  /-- `h` -/
  | SHORTTYPE
  /-- (none) -/
  | INTTYPE
  /-- `j` -/
  | INTTYPEMAX
  /-- `l` -/
  | LONGTYPE
  /-- `ll` -/
  | LONGLONGTYPE
  /-- `t` -/
  | PTRDIFFT
  /-- `z` -/
  | SIZET
  deriving DecidableEq, Repr

/-- `struct printf_conversion`. -/
structure PrintfConversion where
  flags : Flags
  /-- Minimum field width. -/
  width : Int
  /-- Numeric precision; -1 if no precision was specified. -/
  precision : Int
  type : ArgumentType
  deriving DecidableEq, Repr

/-- The flag of a flag character. -/
def Flags.add (flags : Flags) (c : Char) : Option Flags :=
  if c = '-' then some { flags with MINUS := true }
  else if c = '+' then some { flags with PLUS := true }
  else if c = ' ' then some { flags with SPACE := true }
  else if c = '#' then some { flags with POUND := true }
  else if c = '0' then some { flags with ZERO := true }
  else if c = '\'' then some { flags with GROUP := true }
  else none

/-- The loop over the flag characters. -/
def flagLoop (format : Format) : Nat → Nat → Flags → Kernel (Nat × Flags)
  | 0, _, _ => .error .endlessLoop
  | n + 1, p, flags => do
    let c ← fetch format p
    match flags.add c with
    | some flags => flagLoop format n (p + 1) flags
    | none => return (p, flags)

/-- The two flags that other ones take away. -/
def Flags.normalize (flags : Flags) : Flags :=
  { flags with ZERO := flags.ZERO && !flags.MINUS, SPACE := flags.SPACE && !flags.PLUS }

/-- The loop over the digits of a field width or precision. -/
def numberLoop (format : Format) : Nat → Nat → Int → Kernel (Nat × Int)
  | 0, _, _ => .error .endlessLoop
  | n + 1, p, number => do
    let c ← fetch format p
    if isdigit c then numberLoop format n (p + 1) (wrapInt (number * 10 + c.toNat - '0'.toNat))
    else return (p, number)

/-- A number, or `*` for one among the arguments. -/
def parseNumber (format : Format) (n p : Nat) (args : VaList) : Kernel (Nat × Int × VaList) := do
  let c ← fetch format p
  if c = '*' then return (p + 1, asInt (args 0), args.drop 1)
  else
    let (p, number) ← numberLoop format n p 0
    return (p, number, args)

/-- A negative field width stands for the flag `-`. -/
def fieldWidth (flags : Flags) (width : Int) : Flags × Int :=
  if width < 0 then ({ flags with MINUS := true }, wrapInt (-width)) else (flags, width)

/-- The precision, if there is one. -/
def parsePrecision (format : Format) (n p : Nat) (args : VaList) : Kernel (Nat × Int × VaList) := do
  let c ← fetch format p
  if c = '.' then
    let (p, precision, args) ← parseNumber format n (p + 1) args
    return (p, if precision < 0 then -1 else precision, args)
  else return (p, -1, args)

/-- The type of the argument. -/
def parseType (format : Format) (p : Nat) : Kernel (Nat × ArgumentType) := do
  let c ← fetch format p
  if c = 'h' then
    let c ← fetch format (p + 1)
    return if c = 'h' then (p + 2, .CHARTYPE) else (p + 1, .SHORTTYPE)
  else if c = 'j' then return (p + 1, .INTTYPEMAX)
  else if c = 'l' then
    let c ← fetch format (p + 1)
    return if c = 'l' then (p + 2, .LONGLONGTYPE) else (p + 1, .LONGTYPE)
  else if c = 't' then return (p + 1, .PTRDIFFT)
  else if c = 'z' then return (p + 1, .SIZET)
  else return (p, .INTTYPE)

/-- **`parse_conversion(format, c, args)`**: where the conversion character is, the conversion, and the
arguments behind those for `*`. -/
def parseConversion (format : Format) (n p : Nat) (args : VaList) : Kernel (Nat × PrintfConversion × VaList) := do
  let (p, flags) ← flagLoop format n p noFlags
  let (p, width, args) ← parseNumber format n p args
  let (flags, width) := fieldWidth flags.normalize width
  let (p, precision, args) ← parsePrecision format n p args
  let (p, type) ← parseType format p
  return (p, ⟨{ flags with ZERO := flags.ZERO && decide (precision < 0) }, width, precision, type⟩, args)

/-! ## Output -/

variable {σ : Type} (output : Char → σ → σ)

/-- `output_dup(ch, cnt, output, aux)`. -/
def outputDup (ch : Char) : Nat → σ → σ
  | 0, aux => aux
  | cnt + 1, aux => outputDup ch cnt (output ch aux)

/-- A text, character by character. -/
def outputText (text : List Char) (aux : σ) : σ := text.foldl (fun aux ch => output ch aux) aux

/-- `struct integer_base`; `x` is the character of the prefix, if there is one. -/
structure IntegerBase where
  base : Nat
  digits : List Char
  x : Option Char
  group : Nat
  one_lt : 1 < base

def base_d : IntegerBase := ⟨10, "0123456789".toList, none, 3, by decide⟩
def base_o : IntegerBase := ⟨8, "01234567".toList, none, 3, by decide⟩
def base_x : IntegerBase := ⟨16, "0123456789abcdef".toList, some 'x', 4, by decide⟩
def base_X : IntegerBase := ⟨16, "0123456789ABCDEF".toList, some 'X', 4, by decide⟩

/-- `b->digits[d]`. -/
def IntegerBase.digit (b : IntegerBase) (d : Nat) : Char := b.digits.getD d '\x00'

/-- The loop of `format_integer` that accumulates digits. `buf` is the part of the buffer in front of `cp`, the
last character first; no more rounds are made than the value has to count down to 0. -/
def digitLoop (b : IntegerBase) (grouped : Bool) : Nat → Nat → Nat → List Char → List Char
  | 0, _, _, buf => buf
  | n + 1, value, digitCnt, buf =>
    if value = 0 then buf
    else
      let buf := if grouped ∧ digitCnt > 0 ∧ digitCnt % b.group = 0 then ',' :: buf else buf
      digitLoop b grouped n (value / b.base) (digitCnt + 1) (b.digit (value % b.base) :: buf)

/-- The sign character, if any. -/
def signCharacter (flags : Flags) (isSigned negative : Bool) : Option Char :=
  if isSigned = false then none
  else if flags.PLUS then some (if negative then '-' else '+')
  else if flags.SPACE then some (if negative then '-' else ' ')
  else if negative then some '-'
  else none

/-- `sizeof buf` in `format_integer`. -/
def digitBufferSize : Nat := 64

/-- The digits, with the zeros for the precision and the one of the flag `#` for base 8; the last one first in
`buf`, so that the result is what is to be output. -/
def integerDigits (value : Nat) (b : IntegerBase) (c : PrintfConversion) : List Char :=
  let buf := digitLoop b c.flags.GROUP value value 0 []
  let precision := if c.precision < 0 then 1 else c.precision
  let buf := List.replicate (min precision.toNat (digitBufferSize - 1) - buf.length) '0' ++ buf
  if c.flags.POUND ∧ b.base = 8 ∧ buf.head? ≠ some '0' then '0' :: buf else buf

/-- **`format_integer(value, is_signed, negative, b, c, output, aux)`.** -/
def formatInteger (value : Nat) (isSigned negative : Bool) (b : IntegerBase) (c : PrintfConversion) (aux : σ) : σ :=
  let sign := signCharacter c.flags isSigned negative
  let x := if c.flags.POUND ∧ value ≠ 0 then b.x else none
  let buf := integerDigits value b c
  let padCnt := (wrapInt (c.width - buf.length - (if x.isSome then 2 else 0) - (if sign.isSome then 1 else 0))).toNat
  let aux := if c.flags.MINUS = false ∧ c.flags.ZERO = false then outputDup output ' ' padCnt aux else aux
  let aux := outputText output sign.toList aux
  let aux := outputText output (x.toList.flatMap fun x => ['0', x]) aux
  let aux := if c.flags.ZERO then outputDup output '0' padCnt aux else aux
  let aux := outputText output buf aux
  if c.flags.MINUS then outputDup output ' ' padCnt aux else aux

/-- **`format_string(string, length, c, output, aux)`**, for the characters of the string. -/
def formatString (string : List Char) (c : PrintfConversion) (aux : σ) : σ :=
  let length := wrapInt string.length
  -- an `int` that `output_dup` takes for a `size_t`
  let padCnt := (UInt32.ofInt (c.width - length)).toNat
  let aux := if c.width > length ∧ c.flags.MINUS = false then outputDup output ' ' padCnt aux else aux
  let aux := outputText output (string.take length.toNat) aux
  if c.width > length ∧ c.flags.MINUS then outputDup output ' ' padCnt aux else aux

/-! ## Whole formats -/

/-- A number of `bits` bits as a signed one. -/
def signed (bits value : Nat) : Int := (value : Int).bmod (2 ^ bits)

/-- The argument of a signed conversion, and the arguments behind it. -/
def signedArgument (type : ArgumentType) (args : VaList) : Int × VaList :=
  match type with
  | .CHARTYPE => (signed 8 (args 0).toNat, args.drop 1)
  | .SHORTTYPE => (signed 16 (args 0).toNat, args.drop 1)
  | .INTTYPE | .LONGTYPE | .PTRDIFFT => (asInt (args 0), args.drop 1)
  | .INTTYPEMAX | .LONGLONGTYPE => (signed 64 (doubleWord args), args.drop 2)
  | .SIZET =>
    -- a number of 64 bits here, from which the word is taken off again
    let value : Int := (args 0).toNat
    (if value > 2147483647 then value - 4294967295 - 1 else value, args.drop 1)

/-- The argument of an unsigned conversion, and the arguments behind it. -/
def unsignedArgument (type : ArgumentType) (args : VaList) : Nat × VaList :=
  match type with
  | .CHARTYPE => ((args 0).toNat % 2 ^ 8, args.drop 1)
  | .SHORTTYPE => ((args 0).toNat % 2 ^ 16, args.drop 1)
  | .INTTYPE | .LONGTYPE | .PTRDIFFT | .SIZET => ((args 0).toNat, args.drop 1)
  | .INTTYPEMAX | .LONGLONGTYPE => (doubleWord args, args.drop 2)

/-- The string `(null)`. -/
def nullString : List Char := "(null)".toList

/-- **One conversion**, for the character `ch`; `none` for those that are not supported. -/
def convert (memory : UInt32 → Char) (ch : Char) (c : PrintfConversion) (args : VaList) (aux : σ) :
    Option (VaList × σ) :=
  if ch = 'd' ∨ ch = 'i' then
    let (value, args) := signedArgument c.type args
    some (args, formatInteger output value.natAbs true (decide (value < 0)) base_d c aux)
  else if ch = 'o' ∨ ch = 'u' ∨ ch = 'x' ∨ ch = 'X' then
    let (value, args) := unsignedArgument c.type args
    let b := if ch = 'o' then base_o else if ch = 'u' then base_d else if ch = 'x' then base_x else base_X
    some (args, formatInteger output value false false b c aux)
  else if ch = 'c' then some (args.drop 1, formatString output [Char.ofNat ((args 0).toNat % 2 ^ 8)] c aux)
  else if ch = 's' then
    let maxLen := (UInt32.ofInt c.precision).toNat
    let string := if args 0 = 0 then nullString.take maxLen else stringAt memory maxLen (args 0)
    some (args.drop 1, formatString output string c aux)
  else if ch = 'p' then
    some (args.drop 1,
      formatInteger output (args 0).toNat false false base_x { c with flags := { noFlags with POUND := true } } aux)
  else none

/-- The text that is output for a conversion that is not supported; its argument is the character. -/
def unsupportedText (ch : Char) : List Char :=
  if ch = 'f' ∨ ch = 'e' ∨ ch = 'E' ∨ ch = 'g' ∨ ch = 'G' ∨ ch = 'n' then "<<no %%%c in kernel>>".toList
  else "<<no %%%c conversion>>".toList

/-- The arguments of a call of `__printf` with one character. -/
def characterArgument (ch : Char) : VaList := fun _ => UInt32.ofNat ch.toNat

/-- **`__vprintf(format, args, output, aux)`**, from offset `p` of the format on. -/
def vprintf (memory : UInt32 → Char) : Nat → Format → Nat → VaList → σ → Kernel σ
  | 0, _, _, _, _ => .error .endlessLoop
  | n + 1, format, p, args, aux => do
    let ch ← fetch format p
    if ch = '\x00' then return aux
    else if ch ≠ '%' then vprintf memory n format (p + 1) args (output ch aux)
    else
      let ch ← fetch format (p + 1)
      if ch = '%' then vprintf memory n format (p + 2) args (output '%' aux)
      else
        let (p, c, args) ← parseConversion format n (p + 1) args
        let ch ← fetch format p
        match convert output memory ch c args aux with
        | some (args, aux) => vprintf memory n format (p + 1) args aux
        | none =>
          -- `__printf(..., output, aux, *format)`
          let aux ← vprintf memory n (literal (unsupportedText ch)) 0 (characterArgument ch) aux
          vprintf memory n format (p + 1) args aux

/-! ## Formatting into a buffer -/

/-- `struct vsnprintf_aux`, with the buffer; `p` is the offset in it. -/
structure VsnprintfAux where
  buffer : Nat → Char
  p : Nat
  length : Int
  max_length : Int

/-- `vsnprintf_helper(ch, aux)`. -/
def vsnprintfHelper (ch : Char) (aux : VsnprintfAux) : VsnprintfAux :=
  if aux.length < aux.max_length then
    { aux with
      buffer := Function.update aux.buffer aux.p ch
      p := aux.p + 1
      length := wrapInt (aux.length + 1) }
  else { aux with length := wrapInt (aux.length + 1) }

/-- **`vsnprintf(buffer, buf_size, format, args)`**: what it returns, and the buffer. -/
def vsnprintf (memory : UInt32 → Char) (n : Nat) (buffer : Nat → Char) (bufSize : UInt32) (format : Format)
    (args : VaList) : Kernel (Int × (Nat → Char)) := do
  let maxLength := if bufSize > 0 then wrapInt (bufSize - 1).toNat else 0
  let aux ← vprintf vsnprintfHelper memory n format 0 args ⟨buffer, 0, 0, maxLength⟩
  let buffer := if bufSize > 0 then Function.update aux.buffer aux.p '\x00' else aux.buffer
  return (aux.length, buffer)

/-! ## What is output -/

variable {output} {aux : σ} {b : IntegerBase} {c : PrintfConversion} {value : Nat}

/-- A text is output in parts. -/
theorem outputText_append (text text' : List Char) :
    outputText output (text ++ text') aux = outputText output text' (outputText output text aux) :=
  List.foldl_append ..

/-- An output function that collects the characters. -/
def collect (ch : Char) (out : List Char) : List Char := out ++ [ch]

/-- A text is collected behind what is there. -/
theorem outputText_collect (text out : List Char) : outputText collect text out = out ++ text := by
  induction text generalizing out with
  | nil => exact (List.append_nil out).symm
  | cons ch text ih =>
    show outputText collect text (out ++ [ch]) = _
    rw [ih, List.append_assoc, List.singleton_append]

/-- Repeating a character is outputting a text. -/
theorem outputDup_eq (ch : Char) (cnt : Nat) :
    outputDup output ch cnt aux = outputText output (List.replicate cnt ch) aux := by
  induction cnt generalizing aux with
  | zero => rfl
  | succ cnt ih =>
    rw [outputDup, ih, List.replicate_succ]
    rfl

/-- Padding that may be missing. -/
theorem outputDup_ite (p : Prop) [Decidable p] (ch : Char) (cnt : Nat) :
    (if p then outputDup output ch cnt aux else aux)
      = outputText output (if p then List.replicate cnt ch else []) aux := by
  by_cases hp : p
  · rw [if_pos hp, if_pos hp, outputDup_eq]
  · rw [if_neg hp, if_neg hp]
    rfl

/-- **The text of an integer**: padding, sign and prefix, digits. -/
def integerText (value : Nat) (isSigned negative : Bool) (b : IntegerBase) (c : PrintfConversion) : List Char :=
  let sign := signCharacter c.flags isSigned negative
  let x := if c.flags.POUND ∧ value ≠ 0 then b.x else none
  let buf := integerDigits value b c
  let padCnt := (wrapInt (c.width - buf.length - (if x.isSome then 2 else 0) - (if sign.isSome then 1 else 0))).toNat
  (if c.flags.MINUS = false ∧ c.flags.ZERO = false then List.replicate padCnt ' ' else [])
    ++ sign.toList ++ (x.toList.flatMap fun x => ['0', x])
    ++ (if c.flags.ZERO then List.replicate padCnt '0' else []) ++ buf
    ++ if c.flags.MINUS then List.replicate padCnt ' ' else []

/-- **`format_integer` outputs that text.** -/
theorem formatInteger_eq (value : Nat) (isSigned negative : Bool) (b : IntegerBase) (c : PrintfConversion) :
    formatInteger output value isSigned negative b c aux
      = outputText output (integerText value isSigned negative b c) aux := by
  simp only [formatInteger, integerText, outputText_append, outputDup_ite]

/-! ## Digits -/

/-- **The loop accumulates the digits** of the value. -/
theorem digitLoop_eq {n digitCnt : Nat} {buf : List Char} (hn : value ≤ n) :
    digitLoop b false n value digitCnt buf = ((Nat.digits b.base value).map b.digit).reverse ++ buf := by
  induction n generalizing value digitCnt buf with
  | zero =>
    obtain rfl := Nat.le_zero.mp hn
    simp [digitLoop]
  | succ n ih =>
    by_cases hvalue : value = 0
    · subst hvalue
      simp [digitLoop]
    · have hpos : 0 < value := Nat.pos_of_ne_zero hvalue
      have hless : value / b.base ≤ n := by
        have := Nat.div_lt_self hpos b.one_lt
        omega
      rw [digitLoop, if_neg hvalue, Nat.digits_def' b.one_lt hpos]
      simp [ih hless]

/-- The lowest digit of a number is at most 8 places of base 16 away from the highest one. -/
theorem digits_append_zeros {base places : Nat} (hbase : 1 < base) (hvalue : value < base ^ places) :
    Nat.digits base value ++ List.replicate (places - (Nat.digits base value).length) 0
      = (List.range places).map fun i => value / base ^ i % base := by
  have hlength : (Nat.digits base value).length ≤ places := (Nat.digits_length_le_iff hbase value).mpr hvalue
  refine List.ext_getElem (by simp [hlength]) fun i hi hi' => ?_
  rw [List.getElem_map, List.getElem_range]
  have hdigit := Nat.getD_digits value i hbase
  rw [List.getD_eq_getElem?_getD] at hdigit
  by_cases hin : i < (Nat.digits base value).length
  · rw [List.getElem?_eq_getElem hin, Option.getD_some] at hdigit
    rw [List.getElem_append_left hin, hdigit]
  · rw [List.getElem?_eq_none (Nat.not_lt.mp hin), Option.getD_none] at hdigit
    rw [List.getElem_append_right (Nat.not_lt.mp hin), List.getElem_replicate, hdigit]

/-- The flag `0` alone. -/
def zeroFlag : Flags := { noFlags with ZERO := true }

/-- **The digits of a value that is padded with zeros**, the highest first. -/
theorem integerText_zeros {width : Nat} {type : ArgumentType} (hwidth : 0 < width) (hint : width < 2 ^ 31)
    (hzero : b.digit 0 = '0') (hvalue : value < b.base ^ width) :
    integerText value false false b ⟨zeroFlag, width, -1, type⟩
      = ((List.range width).map fun i => b.digit (value / b.base ^ i % b.base)).reverse := by
  have hlength : (Nat.digits b.base value).length ≤ width := (Nat.digits_length_le_iff b.one_lt value).mpr hvalue
  have hdigits : integerDigits value b ⟨zeroFlag, width, -1, type⟩
      = List.replicate (1 - (Nat.digits b.base value).length) '0'
        ++ ((Nat.digits b.base value).map b.digit).reverse := by
    simp [integerDigits, zeroFlag, noFlags, digitLoop_eq le_rfl, digitBufferSize]
  have hpad : (wrapInt ((width : Int) - (integerDigits value b ⟨zeroFlag, width, -1, type⟩).length)).toNat
      = width - (1 - (Nat.digits b.base value).length + (Nat.digits b.base value).length) := by
    rw [hdigits, wrapInt]
    simp only [List.length_append, List.length_replicate, List.length_reverse, List.length_map]
    rw [Int.bmod_eq_of_le (by omega) (by omega)]
    omega
  have hmap : (List.range width).map (fun i => b.digit (value / b.base ^ i % b.base))
      = (Nat.digits b.base value).map b.digit ++ List.replicate (width - (Nat.digits b.base value).length) '0' := by
    have hplaces := congrArg (List.map b.digit) (digits_append_zeros b.one_lt hvalue)
    rw [List.map_append, List.map_replicate, hzero, List.map_map] at hplaces
    exact hplaces.symm
  have hzeros : integerText value false false b ⟨zeroFlag, width, -1, type⟩
      = List.replicate (wrapInt ((width : Int) - (integerDigits value b ⟨zeroFlag, width, -1, type⟩).length)).toNat '0'
        ++ integerDigits value b ⟨zeroFlag, width, -1, type⟩ := by
    simp [integerText, zeroFlag, noFlags, signCharacter]
  rw [hzeros, hpad, hdigits, hmap, List.reverse_append, List.reverse_replicate, ← List.append_assoc,
    List.replicate_append_replicate]
  congr 2
  omega

/-! ## The buffer -/

/-- **The characters that reach the buffer**: those in front of offset `max`, one behind the other. -/
theorem helper_outputText {text : List Char} {buffer : Nat → Char} {max k : Nat} (hk : k + text.length < 2 ^ 31) :
    outputText vsnprintfHelper text ⟨buffer, min k max, k, max⟩
      = ⟨fun i => if k ≤ i ∧ i < min (k + text.length) max then text.getD (i - k) '\x00' else buffer i,
          min (k + text.length) max, (k + text.length : Nat), max⟩ := by
  -- induction on the text, with the offset of its first character
  induction text generalizing buffer k with
  | nil =>
    have hnone : ∀ i, ¬ (k ≤ i ∧ i < min k max) := by
      intro i
      omega
    simp only [outputText, List.foldl_nil, List.length_nil, Nat.add_zero, if_neg (hnone _)]
  | cons ch text ih =>
    rw [List.length_cons] at hk
    have hwrap : wrapInt ((k : Int) + 1) = (k + 1 : Nat) := by
      rw [wrapInt, Int.bmod_eq_of_le (by omega) (by omega)]
      rfl
    have hstep : vsnprintfHelper ch ⟨buffer, min k max, k, max⟩
        = ⟨if k < max then Function.update buffer k ch else buffer, min (k + 1) max, (k + 1 : Nat), max⟩ := by
      by_cases hroom : k < max
      · have hmin : min k max = k := by omega
        simp [vsnprintfHelper, hroom, hwrap, hmin]
      · have hmin : min k max = max := by omega
        have hmin' : min (k + 1) max = max := by omega
        simp [vsnprintfHelper, hroom, hwrap, hmin, hmin']
    have hcons : outputText vsnprintfHelper (ch :: text) ⟨buffer, min k max, k, max⟩
        = outputText vsnprintfHelper text (vsnprintfHelper ch ⟨buffer, min k max, k, max⟩) := rfl
    have hlength : k + 1 + text.length = k + (text.length + 1) := by omega
    rw [hcons, hstep, ih (by omega), List.length_cons, hlength]
    refine congrArg (fun buffer => VsnprintfAux.mk buffer _ _ _) (funext fun i => ?_)
    have hinsert : (if k < max then Function.update buffer k ch else buffer) i
        = if i = k ∧ k < max then ch else buffer i := by
      by_cases hroom : k < max
      · by_cases hi : i = k
        · rw [if_pos hroom, if_pos ⟨hi, hroom⟩, hi, Function.update_self]
        · rw [if_pos hroom, if_neg fun h => hi h.1, Function.update_of_ne hi]
      · rw [if_neg hroom, if_neg fun h => hroom h.2]
    simp only [hinsert]
    clear hwrap hstep
    by_cases hrest : k + 1 ≤ i ∧ i < min (k + (text.length + 1)) max
    · have hsub : i - k = i - (k + 1) + 1 := by omega
      rw [if_pos hrest, if_pos ⟨by omega, hrest.2⟩, hsub, List.getD_cons_succ]
    · rw [if_neg hrest]
      by_cases hfirst : i = k ∧ k < max
      · obtain ⟨rfl, hroom⟩ := hfirst
        rw [if_pos ⟨rfl, hroom⟩, if_pos ⟨le_rfl, by omega⟩, Nat.sub_self]
        rfl
      · rw [if_neg hfirst, if_neg (by omega)]

end KaushOS.Stdio
