import KaushOS.Lib.Strtol
import KaushOS.Lib.BoundedOutput
import KaushOS.Lib.DigitBuffer

/-! # Printing a number, and parsing it (`lib/stdio.c`, `lib/string.c`)

The conversions `%ld`, `%#lo`, `%#lx` and `%#lX` write numbers with a sign or with the prefix of their base, and `strtol`
with base 0 takes the base from the prefix. It knows the prefix `0x` only.

* **`NumberConversion`** — the four conversions, **`FieldWidth`** — their field widths.
* **`number_emitted`** — what such a format outputs.
* **`text_zero`**, **`text_pos`** — blanks, a sign, a mark of the base, and the digits.
* **`strtol_marked`** — the number that stands behind blanks, a sign and a mark.
* **`print_parse_iff`** — when parsing gives the number back. -/

namespace KaushOS.Stdio

/-! ## Four conversions -/

/-- A field width: digits in the format, or an argument. -/
inductive FieldWidth
  /-- the digits of `w`; none for 0 -/
  | digits (w : Nat)
  /-- `*` -/
  | argument (w : UInt32)

/-- The number of characters. -/
def FieldWidth.number : FieldWidth → Nat
  | .digits w => w
  | .argument w => w.toNat

/-- The width in the format. -/
def FieldWidth.text : FieldWidth → List Char
  | .digits w => (Nat.digits 10 w).reverse.map base_d.digit
  | .argument _ => ['*']

/-- The width among the arguments. -/
def FieldWidth.words : FieldWidth → List UInt32
  | .digits _ => []
  | .argument w => [w]

/-- **The conversions of a `long`** that show its base. -/
inductive NumberConversion
  /-- `%ld` -/
  | ld
  /-- `%#lo` -/
  | lo
  /-- `%#lx` -/
  | lx
  /-- `%#lX` -/
  | lX
  deriving DecidableEq

namespace NumberConversion

/-- The character of the conversion. -/
def character : NumberConversion → Char
  | ld => 'd'
  | lo => 'o'
  | lx => 'x'
  | lX => 'X'

/-- The table of its base. -/
def table : NumberConversion → IntegerBase
  | ld => base_d
  | lo => base_o
  | lx => base_x
  | lX => base_X

/-- Its flags. -/
def flags : NumberConversion → List Char
  | ld => []
  | _ => ['#']

/-- The options, and the character. -/
def options (k : NumberConversion) (w : FieldWidth) : List Char := k.flags ++ (w.text ++ ['l', k.character])

/-- **The format.** -/
def format (k : NumberConversion) (w : FieldWidth) : List Char := '%' :: k.options w

/-- The conversion that is parsed. -/
def parsed (k : NumberConversion) (w : FieldWidth) : PrintfConversion :=
  ⟨flagsOf k.flags noFlags, w.number, -1, .LONGTYPE⟩

/-- Whether a minus is printed. -/
def negative (k : NumberConversion) (v : UInt32) : Bool := decide (k = ld) && decide (asInt v < 0)

/-- The number without its sign. -/
def magnitude (k : NumberConversion) (v : UInt32) : Nat := if k = ld then (asInt v).natAbs else v.toNat

/-- **The text.** -/
def text (k : NumberConversion) (w : FieldWidth) (v : UInt32) : List Char :=
  integerText (k.magnitude v) (decide (k = ld)) (k.negative v) k.table (k.parsed w)

/-- What stands in front of the digits of a number other than 0. -/
def mark : NumberConversion → List Char
  | ld => []
  | lo => ['0']
  | lx => ['0', 'x']
  | lX => ['0', 'X']

end NumberConversion

variable {k : NumberConversion} {w : FieldWidth} {v : UInt32} {args : VaList} {memory : UInt32 → Char} {n m p d : Nat}
  {b : IntegerBase} {s : Format} {ds : List Nat} {t : List Char}

/-! ## Digits -/

/-- **The digits of a table** are those that `strtol` knows. -/
theorem digitOf_digit (hb : b ∈ baseTables) (hd : d < b.base) : digitOf (b.digit d) = some d := by
  simp only [baseTables, List.mem_cons, List.not_mem_nil, or_false] at hb
  rcases hb with rfl | rfl | rfl | rfl
  · have hall : ∀ d < 10, digitOf (base_d.digit d) = some d := by decide +kernel
    exact hall d hd
  · have hall : ∀ d < 8, digitOf (base_o.digit d) = some d := by decide +kernel
    exact hall d hd
  · have hall : ∀ d < 16, digitOf (base_x.digit d) = some d := by decide +kernel
    exact hall d hd
  · have hall : ∀ d < 16, digitOf (base_X.digit d) = some d := by decide +kernel
    exact hall d hd

/-- The digits of a number, the highest one first, are digits of its base. -/
theorem digits_lt (b : IntegerBase) (value : Nat) : ∀ d ∈ (Nat.digits b.base value).reverse, d < b.base :=
  fun _ hd => Nat.digits_lt_base b.one_lt (List.mem_reverse.mp hd)

/-- The highest digit of a number is not 0. -/
theorem digits_head {value : Nat} (b : IntegerBase) (hvalue : value ≠ 0) :
    ∃ d ds, (Nat.digits b.base value).reverse = d :: ds ∧ d ≠ 0 := by
  have hne : Nat.digits b.base value ≠ [] := Nat.digits_ne_nil_iff_ne_zero.mpr hvalue
  refine ⟨(Nat.digits b.base value).getLast hne, (Nat.digits b.base value).dropLast.reverse, ?_,
    Nat.getLast_digit_ne_zero b.base hvalue⟩
  conv_lhs => rw [← List.dropLast_append_getLast hne]
  rw [List.reverse_append]
  rfl

/-- **The characters of a number** begin with one that stands for a digit other than 0. -/
theorem digits_head_character {value : Nat} (hb : b ∈ baseTables) (hvalue : value ≠ 0) :
    ∃ c d, ((Nat.digits b.base value).reverse.map b.digit).head? = some c ∧ digitOf c = some d ∧ d ≠ 0 ∧ d < b.base := by
  obtain ⟨d, ds, hdigits, hne⟩ := digits_head b hvalue
  have hless : d < b.base := digits_lt b value d (by rw [hdigits]; exact List.mem_cons_self)
  exact ⟨b.digit d, d, by rw [hdigits]; rfl, digitOf_digit hb hless, hne, hless⟩

/-! ## The format -/

/-- Digits in a format are read as the number that they have. -/
theorem digitsOf_digits {val : Int} (hds : ∀ d ∈ ds, d < 10) :
    (ds.map base_d.digit).foldl (fun number c => wrapInt (number * 10 + c.toNat - '0'.toNat)) (wrapInt val)
      = wrapInt (accumulate 10 val ds) := by
  induction ds generalizing val with
  | nil => rfl
  | cons d ds ih =>
    have hdigit : ∀ d < 10, (base_d.digit d).toNat = d + '0'.toNat := by decide +kernel
    rw [List.map_cons, List.foldl_cons, hdigit d (hds d List.mem_cons_self)]
    have hsub : wrapInt val * 10 + ((d + '0'.toNat : Nat) : Int) - '0'.toNat = wrapInt val * 10 + d := by
      push_cast
      ring
    rw [hsub, wrapInt_accumulate, ih fun d hd => hds d (List.mem_cons_of_mem _ hd)]
    rfl

/-- The first character of a field width is no flag. -/
theorem width_head (w : FieldWidth) (c : Char) :
    ∀ a, (w.text ++ ['l', c]).head? = some a → isFlag a = false ∧ a ≠ '%' := by
  cases w with
  | argument w =>
    intro a ha
    obtain rfl : '*' = a := Option.some.inj ha
    decide
  | digits w =>
    intro a ha
    by_cases hzero : w = 0
    · subst hzero
      obtain rfl : 'l' = a := by simpa [FieldWidth.text] using ha
      decide
    · obtain ⟨d, ds, hdigits, hne⟩ := digits_head base_d hzero
      have hless : d < 10 := digits_lt base_d w d (by rw [hdigits]; exact List.mem_cons_self)
      have hdigit : ∀ d < 10, d ≠ 0 → isFlag (base_d.digit d) = false ∧ base_d.digit d ≠ '%' := by decide +kernel
      have htext : FieldWidth.text (.digits w) = (d :: ds).map base_d.digit := congrArg (List.map base_d.digit) hdigits
      rw [htext] at ha
      obtain rfl : base_d.digit d = a := Option.some.inj ha
      exact hdigit d hless hne

/-- **The flags** end in front of the width. -/
theorem options_flags (k : NumberConversion) (w : FieldWidth) :
    (k.options w).dropWhile isFlag = w.text ++ ['l', k.character] ∧ (k.options w).takeWhile isFlag = k.flags := by
  have hflags : ∀ a ∈ k.flags, isFlag a = true := by cases k <;> simp [NumberConversion.flags, isFlag]
  have hhead := width_head w k.character
  rw [NumberConversion.options, List.dropWhile_append_of_pos hflags, List.takeWhile_append_of_pos hflags]
  cases hrest : w.text ++ ['l', k.character] with
  | nil => exact ⟨rfl, List.append_nil _⟩
  | cons a t =>
    obtain ⟨hflag, -⟩ := hhead a (by rw [hrest]; rfl)
    rw [List.dropWhile_cons_of_neg (by rw [hflag]; simp), List.takeWhile_cons_of_neg (by rw [hflag]; simp)]
    exact ⟨rfl, List.append_nil _⟩

/-- **The width** is read in front of the type. -/
theorem options_width (k : NumberConversion) (hw : w.number < 2 ^ 31)
    (hargs : ∀ i < w.words.length, w.words[i]? = some (args i)) :
    numberOf (w.text ++ ['l', k.character]) args = ((w.number : Int), args.drop w.words.length)
      ∧ afterNumber (w.text ++ ['l', k.character]) = ['l', k.character] := by
  have hwrap : wrapInt w.number = w.number := by
    rw [wrapInt, Int.bmod_eq_of_le (by omega) (by omega)]
  cases w with
  | argument w =>
    obtain rfl : w = args 0 := Option.some.inj (hargs 0 (by simp [FieldWidth.words]))
    refine ⟨?_, rfl⟩
    exact congrArg (fun number => (number, args.drop 1)) hwrap
  | digits w =>
    have hdigit : ∀ d < 10, isdigit (base_d.digit d) = true ∧ base_d.digit d ≠ '*' := by decide +kernel
    have hless : ∀ d ∈ (Nat.digits 10 w).reverse, d < 10 := digits_lt base_d w
    have hall : ∀ a ∈ FieldWidth.text (.digits w), isdigit a = true := by
      intro a ha
      obtain ⟨d, hd, rfl⟩ := List.mem_map.mp ha
      exact (hdigit d (hless d hd)).1
    have hstar : (FieldWidth.text (.digits w) ++ ['l', k.character]).head? ≠ some '*' := by
      intro hno
      cases htext : FieldWidth.text (.digits w) with
      | nil => rw [htext] at hno; simp at hno
      | cons a t =>
        rw [htext] at hno hall
        obtain rfl : a = '*' := Option.some.inj hno
        have hnot := hall '*' List.mem_cons_self
        simp [isdigit] at hnot
    have hnone : isdigit 'l' = false := by decide
    rw [numberOf, if_neg hstar, afterNumber, if_neg hstar, List.dropWhile_append_of_pos hall, digitsOf,
      List.takeWhile_append_of_pos hall]
    refine ⟨?_, by rw [List.dropWhile_cons_of_neg (by rw [hnone]; simp)]⟩
    rw [List.takeWhile_cons_of_neg (by rw [hnone]; simp), List.append_nil]
    have hnumber : wrapInt 0 = 0 := by decide
    have hvalue : _ = wrapInt (accumulate 10 0 (Nat.digits 10 w).reverse) := digitsOf_digits hless
    rw [hnumber, accumulate_digits] at hvalue
    rw [FieldWidth.text, hvalue]
    exact congrArg (fun number => (number, args)) hwrap

/-- **The options are parsed.** -/
theorem options_parsed (k : NumberConversion) (hw : w.number < 2 ^ 31)
    (hargs : ∀ i < w.words.length, w.words[i]? = some (args i)) :
    conversionOf (k.options w) args = (k.parsed w, args.drop w.words.length)
      ∧ afterOptions (k.options w) = [k.character] := by
  obtain ⟨hdrop, htake⟩ := options_flags k w
  obtain ⟨hnumber, hafter⟩ := options_width k hw hargs
  have htype : typeOf ['l', k.character] = (.LONGTYPE, [k.character]) := by cases k <;> rfl
  have hflags : flagsOf (k.options w) noFlags = flagsOf k.flags noFlags := by
    rw [flagsOf, htake]
    cases k <;> rfl
  constructor
  · have hfield : fieldWidth (flagsOf k.flags noFlags).normalize w.number
        = (flagsOf k.flags noFlags, (w.number : Int)) := by
      rw [fieldWidth, if_neg (by omega)]
      cases k <;> rfl
    have hpoint : ['l', k.character].head? ≠ some '.' := by simp
    simp only [conversionOf, hdrop, hnumber, hafter, hflags, hfield, afterPrecision, precisionOf, if_neg hpoint, htype]
    cases k <;> rfl
  · rw [afterOptions, hdrop, hafter, afterPrecision, if_neg (by simp), htype]

/-- The argument is converted. -/
theorem convert_number (k : NumberConversion) (w : FieldWidth) (args : VaList) :
    convert collect memory k.character (k.parsed w) args [] = some (args.drop 1, k.text w (args 0)) := by
  have hcollect : ∀ value isSigned negative b c,
      formatInteger collect value isSigned negative b c [] = integerText value isSigned negative b c := by
    intro value isSigned negative b c
    rw [formatInteger_eq, outputText_collect, List.nil_append]
  have hsome : ∀ text text' : List Char, text = text' → some (args.drop 1, text) = some (args.drop 1, text') := by
    rintro _ _ rfl
    rfl
  cases k with
  | ld =>
    have hargument : signedArgument (NumberConversion.ld.parsed w).type args = (asInt (args 0), args.drop 1) := rfl
    have hnegative : NumberConversion.negative .ld (args 0) = decide (asInt (args 0) < 0) := Bool.true_and _
    have hmagnitude : NumberConversion.magnitude .ld (args 0) = (asInt (args 0)).natAbs := if_pos rfl
    rw [NumberConversion.character, convert, if_pos (Or.inl rfl), hargument, NumberConversion.text, hmagnitude, hnegative]
    dsimp only
    rw [hcollect]
    rfl
  | lo =>
    rw [NumberConversion.character, convert, if_neg (by simp), if_pos (Or.inl rfl)]
    exact hsome _ _ (hcollect _ _ _ _ _)
  | lx =>
    rw [NumberConversion.character, convert, if_neg (by simp), if_pos (by simp)]
    exact hsome _ _ (hcollect _ _ _ _ _)
  | lX =>
    rw [NumberConversion.character, convert, if_neg (by simp), if_pos (by simp)]
    exact hsome _ _ (hcollect _ _ _ _ _)

/-- **What the format outputs.** -/
theorem number_emitted (k : NumberConversion) (hw : w.number < 2 ^ 31)
    (hargs : ∀ i ≤ w.words.length, (w.words ++ [v])[i]? = some (args i)) (hn : (k.format w).length < n) :
    emitted memory n (literal (k.format w)) args = .ok (k.text w v) := by
  obtain ⟨n, rfl⟩ : ∃ m, n = m + 2 := ⟨n - 2, by simp [NumberConversion.format, NumberConversion.options] at hn; omega⟩
  have hwidth : ∀ i < w.words.length, w.words[i]? = some (args i) := by
    intro i hi
    rw [← hargs i hi.le, List.getElem?_append_left hi]
  have hvalue : (args.drop w.words.length) 0 = v := by
    have hlast := hargs w.words.length le_rfl
    rw [List.getElem?_concat_length] at hlast
    rw [VaList.drop, Nat.zero_add]
    exact (Option.some.inj hlast).symm
  obtain ⟨hparsed, hafter⟩ := options_parsed k hw hwidth
  have hhead : (k.options w).head? ≠ some '%' := by
    intro hno
    cases hflags : k.flags with
    | nil =>
      rw [NumberConversion.options, hflags] at hno
      exact (width_head w k.character '%' hno).2 rfl
    | cons a t =>
      rw [NumberConversion.options, hflags] at hno
      obtain rfl : a = '%' := Option.some.inj hno
      cases k <;> simp [NumberConversion.flags] at hflags
  obtain ⟨p', hat, hrun⟩ := vprintf_parsed (n := n + 1) collect [] memory hhead hparsed (.literal _)
    (by rw [NumberConversion.format, List.length_cons] at hn; omega)
  rw [hafter] at hat hrun
  have hconvert : convert collect memory (([k.character] : List Char).head?.getD '\x00') (k.parsed w)
      (args.drop w.words.length) [] = some ((args.drop w.words.length).drop 1, k.text w v) := by
    rw [← hvalue]
    exact convert_number k w _
  rw [hconvert] at hrun
  have hend : fetch (literal ('%' :: k.options w)) (p' + 1) = .ok '\x00' := hat.next.fetch_nil
  rw [emitted, NumberConversion.format, hrun]
  dsimp only
  rw [vprintf, hend, kernel_ok_bind, if_pos rfl]
  rfl

/-! ## The text -/

/-- A conversion of a number has no flags for its padding, and no precision. -/
theorem parsed_flags (k : NumberConversion) (w : FieldWidth) :
    (k.parsed w).flags.MINUS = false ∧ (k.parsed w).flags.ZERO = false ∧ (k.parsed w).flags.GROUP = false
      ∧ (k.parsed w).flags.PLUS = false ∧ (k.parsed w).flags.SPACE = false
      ∧ ((k.parsed w).flags.POUND = true ↔ k ≠ .ld) := by
  cases k <;> simp [NumberConversion.parsed, NumberConversion.flags, flagsOf, Flags.add, noFlags, isFlag]

/-- The tables. -/
theorem table_mem (k : NumberConversion) : k.table ∈ baseTables := by
  cases k <;> simp [NumberConversion.table, baseTables]

/-- **The text of a number**: blanks, the sign, the prefix and the digits. -/
theorem text_eq (k : NumberConversion) (w : FieldWidth) (v : UInt32) : ∃ m, k.text w v
    = List.replicate m ' ' ++ (minus (k.negative v)
      ++ ((if k ≠ .ld ∧ k.magnitude v ≠ 0 then k.table.x else none).toList.flatMap fun x => ['0', x])
      ++ digitsText (k.magnitude v) k.table (k.parsed w)) := by
  obtain ⟨hminus, hzero, hgroup, hplus, hspace, hpound⟩ := parsed_flags k w
  have hsign : (signCharacter (k.parsed w).flags (decide (k = .ld)) (k.negative v)).toList = minus (k.negative v) := by
    rw [signCharacter, hplus, hspace]
    cases k <;> cases hneg : NumberConversion.negative _ v <;> simp_all [minus, NumberConversion.negative]
  rw [NumberConversion.text, integerText]
  simp only [hminus, hzero, hpound, hsign, integerDigits_eq (table_mem k), and_self, if_true, if_false, Bool.false_eq_true,
    List.append_nil, List.append_assoc]
  exact ⟨_, rfl⟩

/-- **The digits** of a number other than 0, with the zero that is the mark of base 8. -/
theorem digitsText_pos {value : Nat} (k : NumberConversion) (w : FieldWidth) (hvalue : value ≠ 0) :
    digitsText value k.table (k.parsed w)
      = (if k = .lo then ['0'] else []) ++ (Nat.digits k.table.base value).reverse.map k.table.digit := by
  obtain ⟨-, -, hgroup, -, -, hpound⟩ := parsed_flags k w
  obtain ⟨c, d, hhead, hdigit, hne, -⟩ := digits_head_character (table_mem k) hvalue
  have hbase : k ≠ .ld ∧ k.table.base = 8 ↔ k = .lo := by
    cases k <;> simp [NumberConversion.table, base_d, base_o, base_x, base_X]
  have hprecision : (k.parsed w).precision = -1 := rfl
  have hpad : ((Nat.digits k.table.base value).reverse.map k.table.digit).leftpad (min (1 : Int).toNat 63) '0'
      = (Nat.digits k.table.base value).reverse.map k.table.digit := by
    have hpos : (Nat.digits k.table.base value).length ≠ 0 :=
      fun hno => hvalue (Nat.digits_eq_nil_iff_eq_zero.mp (List.length_eq_zero_iff.mp hno))
    rw [List.leftpad, List.length_map, List.length_reverse]
    have hnone : min (1 : Int).toNat 63 - (Nat.digits k.table.base value).length = 0 := by
      have hone : min (1 : Int).toNat 63 = 1 := rfl
      omega
    rw [hnone]
    rfl
  have hc : some c ≠ some '0' := by
    rintro hno
    obtain rfl := Option.some.inj hno
    have hzero : digitOf '0' = some 0 := by decide
    exact hne (Option.some.inj (hdigit.symm.trans hzero))
  rw [digitsText, hgroup, hprecision]
  have hnegative : (-1 : Int) < 0 := by decide
  simp only [Bool.false_eq_true, if_false, ← List.map_reverse, if_pos hnegative, hpad, hhead, hpound, hbase,
    and_iff_left hc]
  split_ifs <;> rfl

/-- Zero has no sign. -/
theorem magnitude_zero (k : NumberConversion) : k.magnitude 0 = 0 ∧ k.negative 0 = false := by
  have hsigned : asInt 0 = 0 := by simp [asInt, wrapInt]
  simp [NumberConversion.magnitude, NumberConversion.negative, hsigned]

/-- **Zero** has neither a sign nor a mark. -/
theorem text_zero (k : NumberConversion) (w : FieldWidth) : ∃ m, k.text w 0 = List.replicate m ' ' ++ ['0'] := by
  obtain ⟨m, htext⟩ := text_eq k w 0
  obtain ⟨hmagnitude, hnegative⟩ := magnitude_zero k
  have hdigits : digitsText 0 k.table (k.parsed w) = ['0'] := by
    cases k <;> simp [digitsText, NumberConversion.parsed, NumberConversion.flags, flagsOf, noFlags, Flags.add, isFlag,
      List.leftpad]
  refine ⟨m, ?_⟩
  rw [htext, hmagnitude, hnegative, hdigits, if_neg (fun hno => hno.2 rfl)]
  rfl

/-- Other numbers are no zero without their sign either. -/
theorem magnitude_ne_zero (k : NumberConversion) (hv : v ≠ 0) : k.magnitude v ≠ 0 := by
  have hpos : v.toNat ≠ 0 := fun hno => hv (UInt32.toNat_inj.mp hno)
  rw [NumberConversion.magnitude]
  split_ifs with hld
  · rw [Int.natAbs_ne_zero, asInt, wrapInt]
    intro hno
    have hdvd := Int.dvd_of_bmod_eq_zero hno
    have hlt := v.toNat_lt
    omega
  · exact hpos

/-- **The other numbers.** -/
theorem text_pos (k : NumberConversion) (w : FieldWidth) (hv : v ≠ 0) : ∃ m, k.text w v
    = List.replicate m ' ' ++ (minus (k.negative v)
      ++ (k.mark ++ (Nat.digits k.table.base (k.magnitude v)).reverse.map k.table.digit)) := by
  obtain ⟨m, htext⟩ := text_eq k w v
  have hvalue := magnitude_ne_zero k hv
  have hmark : ((if k ≠ .ld then k.table.x else none).toList.flatMap fun x => ['0', x])
      ++ (if k = .lo then ['0'] else []) = k.mark := by
    cases k <;> rfl
  refine ⟨m, ?_⟩
  rw [htext, digitsText_pos k w hvalue, ← hmark]
  simp only [ne_eq, hvalue, not_false_eq_true, and_true, List.append_assoc]

/-! ## Parsing -/

/-- **The digits give the value**, up to overflow. -/
theorem valueLoop_table {value : Nat} (hb : b ∈ baseTables)
    (h : At s p ((Nat.digits b.base value).reverse.map b.digit)) (hn : (Nat.digits b.base value).length < n) :
    valueLoop s b.base n p 0 = .ok (wrapInt value, p + (Nat.digits b.base value).length) := by
  have hdigits : ∀ d ∈ (Nat.digits b.base value).reverse, digitOf (b.digit d) = some d ∧ d < b.base := fun d hd =>
    ⟨digitOf_digit hb (digits_lt b value d hd), digits_lt b value d hd⟩
  have hzero : wrapInt 0 = 0 := by decide
  have hloop : valueLoop s b.base n p (wrapInt 0) = _ :=
    valueLoop_digits hdigits h (by rw [List.length_reverse]; exact hn)
  rwa [hzero, accumulate_digits, List.length_reverse] at hloop

/-- **The mark gives the base**, except for `0X`. -/
theorem basePrefix_mark {value : Nat} (hk : k ≠ .lX) (hvalue : value ≠ 0)
    (h : At s p (k.mark ++ (Nat.digits k.table.base value).reverse.map k.table.digit)) :
    basePrefix s 0 p = .ok ((k.table.base : Int), p + k.mark.length) := by
  obtain ⟨c, d, hhead, hdigit, hne, hless⟩ := digits_head_character (table_mem k) hvalue
  have hnone : ∀ a e, digitOf a = some e → (e = 0 ∨ k.table.base ≤ e) →
      ((Nat.digits k.table.base value).reverse.map k.table.digit).head? ≠ some a := by
    intro a e ha he hno
    rw [hhead] at hno
    obtain rfl := Option.some.inj hno
    obtain rfl : d = e := Option.some.inj (hdigit.symm.trans ha)
    omega
  cases k with
  | ld => exact basePrefix_decimal h (hnone '0' 0 (by decide) (Or.inl rfl))
  | lo => exact basePrefix_octal h (hnone 'x' 33 (by decide) (Or.inr (by decide)))
  | lx => exact basePrefix_hexadecimal h
  | lX => exact absurd rfl hk

/-- A `0` is neither a blank nor a sign. -/
theorem zero_head (t : List Char) : ∀ a ∈ [' ', '\t', '+', '-'], ('0' :: t).head? ≠ some a := by
  intro a ha hno
  obtain rfl : '0' = a := Option.some.inj hno
  simp at ha

/-- What begins with a mark or a digit begins with neither a blank nor a sign. -/
theorem mark_head {value : Nat} (k : NumberConversion) (hvalue : value ≠ 0) :
    ∀ a ∈ [' ', '\t', '+', '-'],
      (k.mark ++ (Nat.digits k.table.base value).reverse.map k.table.digit).head? ≠ some a := by
  obtain ⟨c, d, hhead, hdigit, -, -⟩ := digits_head_character (table_mem k) hvalue
  have hnone : ∀ a ∈ [' ', '\t', '+', '-'], digitOf a = none := by
    intro a ha
    simp only [List.mem_cons, List.not_mem_nil, or_false] at ha
    rcases ha with rfl | rfl | rfl | rfl <;> rfl
  cases k with
  | ld =>
    intro a ha hno
    rw [NumberConversion.mark, List.nil_append, hhead] at hno
    obtain rfl := Option.some.inj hno
    rw [hnone c ha] at hdigit
    cases hdigit
  | lo | lx | lX => exact zero_head _

/-- **The number behind blanks, a sign and a mark.** -/
theorem strtol_marked (hk : k ≠ .lX) (hv : v ≠ 0) (hn : (k.text w v).length < n) :
    strtol (literal (k.text w v)) n 0 = .ok (if k.negative v then wrapInt (-wrapInt (k.magnitude v))
      else wrapInt (k.magnitude v), (k.text w v).length) := by
  have hvalue := magnitude_ne_zero k hv
  obtain ⟨m, htext⟩ := text_pos k w hv
  rw [htext] at hn ⊢
  have hlength : (List.replicate m ' ' ++ (minus (k.negative v)
      ++ (k.mark ++ (Nat.digits k.table.base (k.magnitude v)).reverse.map k.table.digit))).length
      = m + (minus (k.negative v)).length + k.mark.length + (Nat.digits k.table.base (k.magnitude v)).length := by
    simp only [List.length_append, List.length_replicate, List.length_map, List.length_reverse]
    omega
  rw [hlength] at hn ⊢
  exact strtol_number (.literal _) (mark_head k hvalue) (fun hat => basePrefix_mark hk hvalue hat)
    (fun hat => valueLoop_table (table_mem k) hat.append (by omega)) (by omega)

/-- **A `0` without digits of base 8 behind it** is all that is parsed, unless it is the one of `0x`. -/
theorem strtol_zero (ht : ∀ a, t.head? = some a → a ≠ 'x' ∧ ∀ d, digitOf a = some d → 8 ≤ d) (hn : m < n) :
    strtol (literal (List.replicate m ' ' ++ '0' :: t)) n 0 = .ok (0, m + 1) := by
  obtain ⟨n, rfl⟩ : ∃ i, n = i + 1 := ⟨n - 1, by omega⟩
  have hat : At (literal (List.replicate m ' ' ++ '0' :: t)) 0 (List.replicate m ' ' ++ (minus false ++ '0' :: t)) :=
    .literal _
  exact strtol_number hat (zero_head t) (fun hat => basePrefix_octal hat fun hno => (ht 'x' hno).1 rfl)
    (fun hat => valueLoop_stop hat.next fun a ha => (ht a ha).2) hn

/-- A zero. -/
theorem strtol_text_zero (k : NumberConversion) (w : FieldWidth) (hn : (k.text w 0).length < n) :
    strtol (literal (k.text w 0)) n 0 = .ok (0, (k.text w 0).length) := by
  obtain ⟨m, htext⟩ := text_zero k w
  rw [htext] at hn ⊢
  rw [List.length_append, List.length_replicate, List.length_singleton] at hn ⊢
  exact strtol_zero (fun a ha => by cases ha) (by omega)

/-- **The mark `0X` is not known**: only its `0` is parsed. -/
theorem strtol_text_lX (w : FieldWidth) (hv : v ≠ 0) (hn : (NumberConversion.lX.text w v).length < n) :
    ∃ p < (NumberConversion.lX.text w v).length, strtol (literal (NumberConversion.lX.text w v)) n 0 = .ok (0, p) := by
  obtain ⟨m, htext⟩ := text_pos .lX w hv
  have hhead : ∀ a, ('X' :: (Nat.digits 16 v.toNat).reverse.map base_X.digit).head? = some a →
      a ≠ 'x' ∧ ∀ d, digitOf a = some d → 8 ≤ d := by
    intro a ha
    obtain rfl : 'X' = a := Option.some.inj ha
    refine ⟨by decide, fun d hd => ?_⟩
    have hdigit : digitOf 'X' = some 33 := by decide
    obtain rfl : 33 = d := Option.some.inj (hdigit.symm.trans hd)
    omega
  have hX : NumberConversion.lX.text w v
      = List.replicate m ' ' ++ '0' :: 'X' :: (Nat.digits 16 v.toNat).reverse.map base_X.digit := htext
  rw [hX] at hn ⊢
  refine ⟨m + 1, ?_, strtol_zero hhead ?_⟩
  · simp
  · simp only [List.length_append, List.length_replicate] at hn
    omega

/-! ## The round trip -/

/-- Overflow does not show modulo 2^32. -/
theorem wrapInt_emod (n : Int) : wrapInt n % 2 ^ 32 = n % 2 ^ 32 := Int.bmod_emod

/-- **What is parsed is the number**, modulo 2^32. -/
theorem parsed_value (k : NumberConversion) (v : UInt32) :
    (if k.negative v then wrapInt (-wrapInt (k.magnitude v)) else wrapInt (k.magnitude v)) % 2 ^ 32 = v.toNat := by
  have hlt := v.toNat_lt
  have hself : asInt v % 2 ^ 32 = v.toNat := by
    rw [asInt, wrapInt_emod]
    omega
  have hinner := wrapInt_emod (k.magnitude v)
  rw [NumberConversion.negative]
  by_cases hld : k = .ld
  · have hmagnitude : k.magnitude v = (asInt v).natAbs := if_pos hld
    rw [hmagnitude] at hinner ⊢
    by_cases hneg : asInt v < 0
    · rw [if_pos (by simp [hld, hneg]), wrapInt_emod]
      omega
    · rw [if_neg (by simp [hneg]), hinner]
      omega
  · have hmagnitude : k.magnitude v = v.toNat := if_neg hld
    rw [if_neg (by simp [hld]), hinner, hmagnitude]
    omega

/-- **Printing and parsing give a number back**: the format outputs one text, and parsing this text gives the number
modulo 2^32 and ends where the text ends. -/
def RoundTrips (k : NumberConversion) (w : FieldWidth) (v : UInt32) : Prop :=
  ∃ text r,
    (∀ memory n args, (k.format w).length < n → (∀ i ≤ w.words.length, (w.words ++ [v])[i]? = some (args i)) →
      emitted memory n (literal (k.format w)) args = .ok text)
    ∧ (∀ n > text.length, strtol (literal text) n 0 = .ok (r, text.length))
    ∧ r % 2 ^ 32 = v.toNat

/-- A number with the mark `0X` is not given back. -/
theorem not_roundTrips_lX (hw : w.number < 2 ^ 31) (hv : v ≠ 0) : ¬ RoundTrips .lX w v := by
  rintro ⟨text, r, hprint, hparse, -⟩
  -- the arguments, and nothing behind them
  have hargs : ∀ i ≤ w.words.length, (w.words ++ [v])[i]? = some ((w.words ++ [v]).getD i 0) := by
    intro i hi
    rw [List.getD_eq_getElem?_getD, List.getElem?_eq_getElem (by simp; omega), Option.getD_some]
  have htext := hprint (fun _ => '\x00') _ _ (Nat.lt_succ_self _) hargs
  rw [number_emitted .lX hw hargs (Nat.lt_succ_self _)] at htext
  obtain rfl := Except.ok.inj htext
  obtain ⟨p, hp, hstop⟩ := strtol_text_lX w hv (Nat.lt_succ_self _)
  have hend := Except.ok.inj (hstop.symm.trans (hparse _ (Nat.lt_succ_self _)))
  exact hp.ne (Prod.mk.inj hend).2

/-- **Printing and parsing give a number back** unless it has the mark `0X`. -/
theorem print_parse_iff (k : NumberConversion) (v : UInt32) (hw : w.number < 2 ^ 31) :
    RoundTrips k w v ↔ (k = .lX → v = 0) := by
  constructor
  · rintro htrip rfl
    by_contra hv
    exact not_roundTrips_lX hw hv htrip
  · intro hcondition
    refine ⟨k.text w v, if k.negative v then wrapInt (-wrapInt (k.magnitude v)) else wrapInt (k.magnitude v),
      fun memory n args hn hargs => number_emitted k hw hargs hn, fun n hn => ?_, parsed_value k v⟩
    by_cases hv : v = 0
    · subst hv
      obtain ⟨hmagnitude, hnegative⟩ := magnitude_zero k
      rw [hmagnitude, hnegative]
      exact strtol_text_zero k w hn
    · exact strtol_marked (fun hk => hv (hcondition hk)) hv hn

/-- The lowest number behind blanks, and a zero. -/
theorem print_parse_lowest : RoundTrips .ld (.digits 20) 2147483648 ∧ RoundTrips .lX (.argument 8) 0 := by
  have hdigits : (FieldWidth.digits 20).number < 2 ^ 31 := by decide
  have hargument : (FieldWidth.argument 8).number < 2 ^ 31 := by decide
  exact ⟨(print_parse_iff .ld 2147483648 hdigits).mpr fun hk => absurd hk (by decide), (print_parse_iff .lX 0 hargument).mpr fun _ => rfl⟩

/-- **The text of 31** in the conversion `%#lX` is parsed as a 0 that ends in front of the `X`. -/
theorem print_parse_fails :
    emitted (fun _ => '\x00') 5 (literal "%#lX".toList) (fun _ => 31) = .ok "0X1F".toList
      ∧ strtol (literal "0X1F".toList) 5 0 = .ok (0, 1) ∧ ¬ RoundTrips .lX (.digits 0) 31 := by
  have hwidth : (FieldWidth.digits 0).number < 2 ^ 31 := by decide
  refine ⟨?_, ?_, not_roundTrips_lX hwidth (by decide)⟩
  · decide +kernel
  · decide +kernel

end KaushOS.Stdio
