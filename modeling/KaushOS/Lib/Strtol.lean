import KaushOS.Lib.FormatScan

/-! # Numbers in a text (`lib/string.c`)

`strtol` goes over blanks, a sign and the prefix of a base to the digits of a number. It does not detect overflow.

* **`strtol`** — the number, and where the text goes on behind it.
* **`accumulate`** — the value of digits, the highest one first.
* **`valueLoop_digits`** — the loop over the digits gives this value, up to overflow.
* **`strtol_number`** — what is behind blanks and a sign. -/

namespace KaushOS.Stdio

/-! ## The function -/

/-- `while (*s == ' ' || *s == '\t') s++;` -/
def blankLoop (s : Format) : Nat → Nat → Kernel Nat
  | 0, _ => .error .endlessLoop
  | n + 1, p => do
    let c ← fetch s p
    if c = ' ' ∨ c = '\t' then blankLoop s n (p + 1) else return p

/-- The digit that a character stands for, in any base. -/
def digitOf (c : Char) : Option Nat :=
  if '0' ≤ c ∧ c ≤ '9' then some (c.toNat - '0'.toNat)
  else if 'a' ≤ c ∧ c ≤ 'z' then some (c.toNat - 'a'.toNat + 10)
  else if 'A' ≤ c ∧ c ≤ 'Z' then some (c.toNat - 'A'.toNat + 10)
  else none

/-- The base, if it is left open, and where the digits begin. -/
def basePrefix (s : Format) (base : Int) (p : Nat) : Kernel (Int × Nat) := do
  let c ← fetch s p
  if (base = 0 ∨ base = 16) ∧ c = '0' then
    let x ← fetch s (p + 1)
    return if x = 'x' then (16, p + 2) else if base = 0 then (8, p + 1) else (base, p)
  else return (if base = 0 then 10 else base, p)

/-- The loop over the digits; a `long` has 32 bits. -/
def valueLoop (s : Format) (base : Int) : Nat → Nat → Int → Kernel (Int × Nat)
  | 0, _, _ => .error .endlessLoop
  | n + 1, p, val => do
    let c ← fetch s p
    match digitOf c with
    | none => return (val, p)
    | some dig => if dig ≥ base then return (val, p) else valueLoop s base n (p + 1) (wrapInt (val * base + dig))

/-- The sign at `p`, if there is one: whether it is a minus, and where the number begins. -/
def signPrefix (c : Char) (p : Nat) : Bool × Nat :=
  if c = '+' then (false, p + 1) else if c = '-' then (true, p + 1) else (false, p)

/-- **`strtol(s, endptr, base)`**: what it returns, and what is stored to `*endptr`. -/
def strtol (s : Format) (n : Nat) (base : Int) : Kernel (Int × Nat) := do
  let p ← blankLoop s n 0
  let c ← fetch s p
  let (neg, p) := signPrefix c p
  let (base, p) ← basePrefix s base p
  let (val, p) ← valueLoop s base n p 0
  return (if neg then wrapInt (-val) else val, p)

variable {s : Format} {p n k base : Nat} {val : Int} {t : List Char} {c : Char} {ds : List Nat} {f : Nat → Char}

/-! ## Values -/

/-- **The value of digits** behind a number `val`, the highest one first. -/
def accumulate (base : Nat) (val : Int) (ds : List Nat) : Int :=
  ds.foldl (fun (val : Int) (d : Nat) => val * base + d) val

/-- The digits of a number have its value. -/
theorem accumulate_digits (base value : Nat) : accumulate base 0 (Nat.digits base value).reverse = value := by
  rw [accumulate, List.foldl_reverse]
  have hvalue : (Nat.ofDigits base (Nat.digits base value) : Int) = value := by
    exact_mod_cast Nat.ofDigits_digits base value
  rw [← hvalue, Nat.ofDigits_eq_foldr]
  congr 1
  funext d val
  ring

/-- Overflow does not show in what is accumulated. -/
theorem wrapInt_accumulate (a : Int) (base d : Int) : wrapInt (wrapInt a * base + d) = wrapInt (a * base + d) := by
  rw [wrapInt, wrapInt, wrapInt, ← Int.bmod_add_bmod, Int.bmod_mul_bmod, Int.bmod_add_bmod]

/-- The NUL or a character that is no digit of the base ends the number. -/
theorem valueLoop_stop (h : At s p t) (ht : ∀ c, t.head? = some c → ∀ d, digitOf c = some d → base ≤ d) :
    valueLoop s base (n + 1) p val = .ok (val, p) := by
  rw [valueLoop, h.fetch_head, kernel_ok_bind]
  cases t with
  | nil => rfl
  | cons c t =>
    rw [List.head?_cons, Option.getD_some]
    cases hdigit : digitOf c with
    | none => rfl
    | some d =>
      have hle := ht c rfl d hdigit
      dsimp only
      rw [if_pos (by omega)]
      rfl

/-- **The loop over the digits** of a text that ends behind them. -/
theorem valueLoop_digits (hds : ∀ d ∈ ds, digitOf (f d) = some d ∧ d < base) (h : At s p (ds.map f))
    (hn : ds.length < n) :
    valueLoop s base n p (wrapInt val) = .ok (wrapInt (accumulate base val ds), p + ds.length) := by
  induction ds generalizing n p val with
  | nil =>
    obtain ⟨n, rfl⟩ : ∃ m, n = m + 1 := ⟨n - 1, by simp at hn; omega⟩
    exact valueLoop_stop h fun c hc => by cases hc
  | cons d ds ih =>
    rw [List.length_cons] at hn
    obtain ⟨n, rfl⟩ : ∃ m, n = m + 1 := ⟨n - 1, by omega⟩
    obtain ⟨hdigit, hless⟩ := hds d List.mem_cons_self
    rw [valueLoop, At.fetch h, kernel_ok_bind, hdigit]
    dsimp only
    rw [if_neg (by omega), wrapInt_accumulate, ih (fun d hd => hds d (List.mem_cons_of_mem _ hd)) (At.next h) (by omega),
      List.length_cons, Nat.add_assoc, Nat.add_comm 1]
    rfl

/-! ## Blanks and prefixes -/

/-- The cursor is advanced behind a text. -/
theorem At.append {t' : List Char} (h : At s p (t ++ t')) : At s (p + t.length) t' := by
  induction t generalizing p with
  | nil => exact h
  | cons c t ih =>
    have hrest : At s (p + 1 + t.length) t' := ih (At.next h)
    rwa [Nat.add_assoc, Nat.add_comm 1] at hrest

/-- Blanks are skipped. -/
theorem blankLoop_blanks (h : At s p (List.replicate k ' ' ++ t)) (ht : t.head? ≠ some ' ' ∧ t.head? ≠ some '\t')
    (hn : k < n) : blankLoop s n p = .ok (p + k) ∧ At s (p + k) t := by
  induction k generalizing p n with
  | zero =>
    obtain ⟨n, rfl⟩ : ∃ m, n = m + 1 := ⟨n - 1, by omega⟩
    refine ⟨?_, h⟩
    have hat : At s p t := h
    rw [blankLoop, hat.fetch_head, kernel_ok_bind, if_neg]
    · rfl
    · rintro (hblank | htab)
      · exact ht.1 ((head_eq_iff (by decide)).mp hblank)
      · exact ht.2 ((head_eq_iff (by decide)).mp htab)
  | succ k ih =>
    obtain ⟨n, rfl⟩ : ∃ m, n = m + 1 := ⟨n - 1, by omega⟩
    rw [List.replicate_succ, List.cons_append] at h
    obtain ⟨hrun, hat⟩ : blankLoop s n (p + 1) = .ok (p + 1 + k) ∧ At s (p + 1 + k) t := ih h.next (by omega)
    rw [Nat.add_assoc, Nat.add_comm 1] at hrun hat
    rw [blankLoop, h.fetch, kernel_ok_bind, if_pos (Or.inl rfl)]
    exact ⟨hrun, hat⟩

/-- Without a `0` in front of it a number is decimal. -/
theorem basePrefix_decimal (h : At s p t) (ht : t.head? ≠ some '0') : basePrefix s 0 p = .ok (10, p) := by
  rw [basePrefix, h.fetch_head, kernel_ok_bind, if_neg fun hno => ht ((head_eq_iff (by decide)).mp hno.2)]
  rfl

/-- With a `0` it is octal, -/
theorem basePrefix_octal (h : At s p ('0' :: t)) (ht : t.head? ≠ some 'x') : basePrefix s 0 p = .ok (8, p + 1) := by
  rw [basePrefix, h.fetch, kernel_ok_bind, if_pos ⟨Or.inl rfl, rfl⟩, h.next.fetch_head, kernel_ok_bind,
    if_neg fun hno => ht ((head_eq_iff (by decide)).mp hno)]
  rfl

/-- and with `0x` it is hexadecimal. -/
theorem basePrefix_hexadecimal (h : At s p ('0' :: 'x' :: t)) : basePrefix s 0 p = .ok (16, p + 2) := by
  rw [basePrefix, h.fetch, kernel_ok_bind, if_pos ⟨Or.inl rfl, rfl⟩, h.next.fetch, kernel_ok_bind, if_pos rfl]
  rfl

/-- The sign of a number, if it is written. -/
def minus (neg : Bool) : List Char := if neg then ['-'] else []

/-- **What is behind blanks and a sign.** -/
theorem strtol_number {neg : Bool} {base' : Nat} {p' : Nat}
    (h : At s 0 (List.replicate k ' ' ++ (minus neg ++ t)))
    (ht : ∀ c ∈ [' ', '\t', '+', '-'], t.head? ≠ some c)
    (hbase : At s (k + (minus neg).length) t → basePrefix s 0 (k + (minus neg).length) = .ok ((base' : Int), p'))
    (hvalue : At s (k + (minus neg).length) t → valueLoop s base' n p' 0 = .ok (val, p)) (hn : k < n) :
    strtol s n 0 = .ok (if neg then wrapInt (-val) else val, p) := by
  have hblank : (minus neg ++ t).head? ≠ some ' ' ∧ (minus neg ++ t).head? ≠ some '\t' := by
    cases neg with
    | false => exact ⟨ht ' ' (by simp), ht '\t' (by simp)⟩
    | true => simp [minus]
  obtain ⟨hrun, hat⟩ := blankLoop_blanks h hblank hn
  rw [Nat.zero_add] at hrun hat
  obtain ⟨hsign, hrest⟩ : signPrefix ((minus neg ++ t).head?.getD '\x00') k = (neg, k + (minus neg).length)
      ∧ At s (k + (minus neg).length) t := by
    cases neg with
    | false =>
      have hplus : t.head?.getD '\x00' ≠ '+' := fun hno => ht '+' (by simp) ((head_eq_iff (by decide)).mp hno)
      have hminus : t.head?.getD '\x00' ≠ '-' := fun hno => ht '-' (by simp) ((head_eq_iff (by decide)).mp hno)
      refine ⟨?_, hat⟩
      show signPrefix (t.head?.getD '\x00') k = _
      rw [signPrefix, if_neg hplus, if_neg hminus]
      rfl
    | true => exact ⟨by simp [signPrefix, minus], At.next hat⟩
  rw [strtol, hrun, kernel_ok_bind, hat.fetch_head, kernel_ok_bind, hsign]
  dsimp only
  rw [hbase hrest, kernel_ok_bind]
  dsimp only
  rw [hvalue hrest, kernel_ok_bind]
  rfl

end KaushOS.Stdio
