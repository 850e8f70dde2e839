import Mathlib.Data.List.TakeWhile
import Mathlib.Order.Basic
import MonitoringTools.CStrings

/-!
# Numbers in strings of the C library

`strtol` skips white space, takes a sign, then the digits of its base, and
stops at the first other character. It saturates where `long` ends; `atoi`
keeps the low 32 bits of what it returns. `strtoull` reads the same text and
negates modulo 2^64. In base zero the prefix of the digits selects their base.
-/
namespace MonitoringTools.CNumbers
open CStrings

def isspace (c : Char) : Bool :=
  c == ' ' || c == '\t' || c == '\n' || c == '\x0b' || c == '\x0c' || c == '\r'

/-- The value of a digit, or 36 for what is none in any base. -/
def digitValue (c : Char) : ℕ :=
  if '0' ≤ c ∧ c ≤ '9' then c.toNat - 48
  else if 'a' ≤ c ∧ c ≤ 'z' then c.toNat - 87
  else if 'A' ≤ c ∧ c ≤ 'Z' then c.toNat - 55
  else 36

def isDigit (base : ℕ) (c : Char) : Bool := digitValue c < base

def number (base : ℕ) (digits : CString) : ℕ :=
  digits.foldl (fun v c => base * v + digitValue c) 0

/-- A sign, and what follows it. -/
def sign : CString → Bool × CString
  | '-' :: s => (true, s)
  | '+' :: s => (false, s)
  | s => (false, s)

/-- The base that a prefix selects, and what follows the prefix. -/
def basePrefix (base : ℕ) (s : CString) : ℕ × CString :=
  match s with
  | '0' :: x :: c :: rest =>
      if (base = 0 ∨ base = 16) ∧ (x = 'x' ∨ x = 'X') ∧ isDigit 16 c then (16, c :: rest)
      else (if base = 0 then 8 else base, s)
  | '0' :: _ => (if base = 0 then 8 else base, s)
  | _ => (if base = 0 then 10 else base, s)

/-- What `strtol` returns, leaves unread and whether it sets `errno`. -/
structure Parsed where
  value : ℤ
  rest : CString
  erange : Bool
  deriving DecidableEq, Repr

def longMax : ℤ := 9223372036854775807
def longMin : ℤ := -9223372036854775808

def strtol (base : ℕ) (s : CString) : Parsed :=
  let (negative, unsigned) := sign (s.dropWhile isspace)
  let (base, unread) := basePrefix base unsigned
  let digits := unread.takeWhile (isDigit base)
  if digits = [] then ⟨0, s, false⟩
  else
    let v : ℤ := if negative then -(number base digits) else number base digits
    let rest := unread.dropWhile (isDigit base)
    if longMax < v then ⟨longMax, rest, true⟩
    else if v < longMin then ⟨longMin, rest, true⟩
    else ⟨v, rest, false⟩

/-- `(int)strtol(s, NULL, 10)`. -/
def atoi (s : CString) : ℤ := (strtol 10 s).value.bmod 4294967296

/-- The integer a string writes in decimal: at most a sign, then digits alone. -/
def decimal (s : CString) : Option ℤ :=
  let (negative, digits) := sign s
  if digits ≠ [] ∧ digits.all (isDigit 10) then
    some (if negative then -(number 10 digits) else number 10 digits)
  else none

theorem basePrefix_ten (s : CString) : basePrefix 10 s = (10, s) := by
  unfold basePrefix
  split <;> simp

theorem not_isspace_of_isDigit {c : Char} (h : isDigit 10 c = true) : isspace c = false := by
  by_contra hspace
  simp only [isspace, Bool.not_eq_false, Bool.or_eq_true, beq_iff_eq] at hspace
  obtain ((((rfl | rfl) | rfl) | rfl) | rfl) | rfl := hspace <;> exact absurd h (by decide)

theorem dropWhile_isspace_of_decimal {s : CString} {v : ℤ} (h : decimal s = some v) :
    s.dropWhile isspace = s := by
  rw [List.dropWhile_eq_self_iff]
  intro hl
  obtain ⟨c, s, rfl⟩ := List.exists_cons_of_length_pos hl
  rw [List.getElem_cons_zero, Bool.not_eq_true]
  by_cases hminus : c = '-'
  · subst hminus
    rfl
  by_cases hplus : c = '+'
  · subst hplus
    rfl
  have hsign : sign (c :: s) = (false, c :: s) := by
    unfold sign
    split <;> simp_all
  simp only [decimal, hsign, Option.ite_none_right_eq_some, List.all_cons, Bool.and_eq_true] at h
  exact not_isspace_of_isDigit h.1.2.1

/-- `strtol` reads all of a decimal string and saturates its value. -/
theorem strtol_decimal {s : CString} {v : ℤ} (h : decimal s = some v) : strtol 10 s =
    if longMax < v then ⟨longMax, [], true⟩
    else if v < longMin then ⟨longMin, [], true⟩
    else ⟨v, [], false⟩ := by
  have hspace := dropWhile_isspace_of_decimal h
  simp only [decimal, Option.ite_none_right_eq_some, List.all_eq_true, Option.some.injEq] at h
  obtain ⟨⟨hne, hdigits⟩, rfl⟩ := h
  have htake : (sign s).2.takeWhile (isDigit 10) = (sign s).2 :=
    List.takeWhile_eq_self_iff.mpr hdigits
  have hdrop : (sign s).2.dropWhile (isDigit 10) = [] := List.dropWhile_eq_nil_iff.mpr hdigits
  simp only [strtol, hspace, basePrefix_ten, htake, hdrop, if_neg hne]

theorem strtol_decimal_natCast {s : CString} {n : ℕ} (h : decimal s = some (n : ℤ)) :
    strtol 10 s = if longMax < n then ⟨longMax, [], true⟩ else ⟨n, [], false⟩ := by
  have hmin : ¬ (n : ℤ) < longMin := by
    unfold longMin
    omega
  rw [strtol_decimal h, if_neg hmin]

theorem atoi_decimal {s : CString} {v : ℤ} (h : decimal s = some v) (hlow : -2147483648 ≤ v)
    (hhigh : v < 2147483648) : atoi s = v := by
  have hmax : ¬ longMax < v := by
    unfold longMax
    omega
  have hmin : ¬ v < longMin := by
    unfold longMin
    omega
  have hvalue : (strtol 10 s).value = v := by rw [strtol_decimal h, if_neg hmax, if_neg hmin]
  rw [atoi, hvalue]
  exact Int.bmod_eq_of_le (by omega) (by omega)

theorem decimal_eq_atoi {s : CString}
    (h : ∃ v, decimal s = some v ∧ -2147483648 ≤ v ∧ v < 2147483648) :
    decimal s = some (atoi s) := by
  obtain ⟨v, hv, hlow, hhigh⟩ := h
  rw [hv, atoi_decimal hv hlow hhigh]

/-- The sign, the magnitude and the rest that every conversion finds. -/
def scan (base : ℕ) (s : CString) : Option (Bool × ℕ × CString) :=
  let (negative, unsigned) := sign (s.dropWhile isspace)
  let (base, unread) := basePrefix base unsigned
  let digits := unread.takeWhile (isDigit base)
  if digits = [] then none
  else some (negative, number base digits, unread.dropWhile (isDigit base))

def ullongMax : ℕ := 18446744073709551615

def strtoull (base : ℕ) (s : CString) : Parsed :=
  match scan base s with
  | none => ⟨0, s, false⟩
  | some (negative, n, rest) =>
      if ullongMax < n then ⟨ullongMax, rest, true⟩
      else ⟨(if negative then -(n : ℤ) else n) % (ullongMax + 1), rest, false⟩

theorem strtol_eq_scan (base : ℕ) (s : CString) : strtol base s = match scan base s with
    | none => ⟨0, s, false⟩
    | some (negative, n, rest) =>
        let v : ℤ := if negative then -n else n
        if longMax < v then ⟨longMax, rest, true⟩
        else if v < longMin then ⟨longMin, rest, true⟩
        else ⟨v, rest, false⟩ := by
  simp only [strtol, scan]
  split <;> rfl

def signed (negative : Bool) (n : ℕ) : ℤ := if negative then -n else n

/-- A text that begins with a decimal number: white space, a sign, digits and the rest. -/
def Begins (s : CString) (negative : Bool) (n : ℕ) (rest : CString) : Prop :=
  ∃ space sgn digits, s = space ++ (sgn ++ (digits ++ rest)) ∧ (∀ c ∈ space, isspace c = true) ∧
    (if negative then sgn = ['-'] else sgn = [] ∨ sgn = ['+']) ∧
    digits ≠ [] ∧ (∀ c ∈ digits, isDigit 10 c = true) ∧ n = number 10 digits ∧
    ∀ c ∈ rest.head?, isDigit 10 c = false

theorem sign_split (s : CString) :
    ∃ sgn, (if (sign s).1 = true then sgn = ['-'] else sgn = [] ∨ sgn = ['+']) ∧
      s = sgn ++ (sign s).2 := by
  unfold sign
  split
  · exact ⟨_, rfl, rfl⟩
  · exact ⟨_, .inr rfl, rfl⟩
  · exact ⟨_, .inl rfl, rfl⟩

theorem sign_digits {sgn u : CString} {negative : Bool}
    (hsgn : if negative then sgn = ['-'] else sgn = [] ∨ sgn = ['+'])
    (hu : ∀ c ∈ u.head?, isDigit 10 c = true) (hne : u ≠ []) :
    (sgn ++ u).dropWhile isspace = sgn ++ u ∧ sign (sgn ++ u) = (negative, u) := by
  obtain ⟨c, u, rfl⟩ := List.exists_cons_of_ne_nil hne
  have hdigit : isDigit 10 c = true := hu c rfl
  cases negative with
  | true =>
      obtain rfl : sgn = ['-'] := hsgn
      exact ⟨rfl, rfl⟩
  | false =>
      rcases hsgn with rfl | rfl
      · have hspace := not_isspace_of_isDigit hdigit
        refine ⟨by simp [hspace], ?_⟩
        unfold sign
        split
        next heq => cases heq; exact absurd hdigit (by decide)
        next heq => cases heq; exact absurd hdigit (by decide)
        next => rfl
      · exact ⟨rfl, rfl⟩

/-- In base ten the conversions read what the text begins with. -/
theorem scan_ten_iff {s : CString} {negative : Bool} {n : ℕ} {rest : CString} :
    scan 10 s = some (negative, n, rest) ↔ Begins s negative n rest := by
  simp only [scan, basePrefix_ten]
  constructor
  · intro h
    rw [Option.ite_none_left_eq_some, Option.some.injEq, Prod.mk.injEq, Prod.mk.injEq] at h
    obtain ⟨hne, hnegative, rfl, rfl⟩ := h
    have hdigits := @List.takeWhile_append_dropWhile _ (isDigit 10) (sign (s.dropWhile isspace)).2
    obtain ⟨sgn, hsgn, hu⟩ := sign_split (s.dropWhile isspace)
    rw [hnegative] at hsgn
    refine ⟨s.takeWhile isspace, sgn, _, ?_, fun c hc => List.mem_takeWhile_imp hc, hsgn, hne,
      fun c hc => List.mem_takeWhile_imp hc, rfl, fun c hc => ?_⟩
    · rw [hdigits, ← hu, List.takeWhile_append_dropWhile]
    · have hstop := List.head?_dropWhile_not (isDigit 10) (sign (s.dropWhile isspace)).2
      rw [Option.mem_def.mp hc] at hstop
      simpa using hstop
  · rintro ⟨space, sgn, digits, rfl, hspace, hsgn, hne, hdigits, rfl, hrest⟩
    have hstop : rest.takeWhile (isDigit 10) = [] ∧ rest.dropWhile (isDigit 10) = rest := by
      cases rest with
      | nil => exact ⟨rfl, rfl⟩
      | cons c rest => simp [hrest c rfl]
    have hhead : ∀ c ∈ (digits ++ rest).head?, isDigit 10 c = true := by
      intro c hc
      rw [List.head?_append_of_ne_nil _ hne] at hc
      exact hdigits c (List.mem_of_mem_head? hc)
    obtain ⟨hdrop, hsign⟩ := sign_digits hsgn hhead (List.append_ne_nil_of_left_ne_nil hne rest)
    rw [List.dropWhile_append_of_pos hspace, hdrop, hsign]
    simp only [List.takeWhile_append_of_pos hdigits, List.dropWhile_append_of_pos hdigits, hstop,
      List.append_nil, if_neg hne]

theorem Begins.rest_ne {s rest : CString} {negative : Bool} {n : ℕ} (h : Begins s negative n rest) :
    rest ≠ s := by
  obtain ⟨space, sgn, digits, rfl, -, -, hne, -⟩ := h
  intro heq
  have hlength := congrArg List.length heq
  have hpos := List.length_pos_iff.mpr hne
  simp only [List.length_append] at hlength
  omega

/-- The number that digits of a base write. -/
def inBase (base : ℕ) (digits : CString) : Option ℕ :=
  if digits ≠ [] ∧ digits.all (isDigit base) then some (number base digits) else none

/-- What follows the prefix of a hexadecimal number. -/
def hexDigits : CString → Option CString
  | '0' :: x :: digits => if x = 'x' ∨ x = 'X' then some digits else none
  | _ => none

/-- A number of at least two digits that starts with a zero. -/
def leadingZero : CString → Bool
  | '0' :: d :: _ => isDigit 10 d
  | _ => false

/-- The magnitude by the conventions of C: octal after a leading zero. -/
def magnitude (s : CString) : Option ℕ :=
  if leadingZero s then inBase 8 s
  else match hexDigits s with
    | some digits => inBase 16 digits
    | none => inBase 10 s

theorem isDigit_mono {b b' : ℕ} (h : b ≤ b') {c : Char} (hc : isDigit b c = true) :
    isDigit b' c = true := by
  simp only [isDigit, decide_eq_true_eq] at hc ⊢
  omega

theorem inBase_eq_none_of_mem {base : ℕ} {digits : CString} {c : Char} (hc : c ∈ digits)
    (h : isDigit base c = false) : inBase base digits = none := by
  have hall : digits.all (isDigit base) = false := by
    rw [List.all_eq_false]
    exact ⟨c, hc, by simp [h]⟩
  simp [inBase, hall]

theorem isDigit_eight_of_ten {c : Char} (h : isDigit 10 c = false) : isDigit 8 c = false := by
  by_contra hc
  have hten := @isDigit_mono 8 10 (by decide) c (by simpa using hc)
  rw [h] at hten
  cases hten

theorem magnitude_of_not_digit {x : Char} {rest : CString} (hx : isDigit 10 x = false)
    (hletter : ¬ (x = 'x' ∨ x = 'X')) :
    inBase 8 ('0' :: x :: rest) = none ∧ magnitude ('0' :: x :: rest) = none := by
  have hmem : x ∈ '0' :: x :: rest := by simp
  refine ⟨inBase_eq_none_of_mem hmem (isDigit_eight_of_ten hx), ?_⟩
  simp only [magnitude, leadingZero, hx, Bool.false_eq_true, if_false, hexDigits, if_neg hletter]
  exact inBase_eq_none_of_mem hmem hx

theorem inBase_eight_eq_magnitude {x : Char} {rest : CString}
    (h : x = 'x' ∨ x = 'X' → inBase 16 rest = none) :
    inBase 8 ('0' :: x :: rest) = magnitude ('0' :: x :: rest) := by
  by_cases hdigit : isDigit 10 x = true
  · simp [magnitude, leadingZero, hdigit]
  · have hten : isDigit 10 x = false := by simpa using hdigit
    by_cases hx : x = 'x' ∨ x = 'X'
    · have hmem : x ∈ '0' :: x :: rest := by simp
      rw [inBase_eq_none_of_mem hmem (isDigit_eight_of_ten hten)]
      simp only [magnitude, leadingZero, hten, Bool.false_eq_true, if_false, hexDigits, if_pos hx,
        h hx]
    · have hnone := @magnitude_of_not_digit x rest hten hx
      rw [hnone.1, hnone.2]

theorem inBase_basePrefix_zero (u : CString) :
    inBase (basePrefix 0 u).1 (basePrefix 0 u).2 = magnitude u := by
  unfold basePrefix
  split
  next x c rest =>
      split
      next h =>
          have hdigit : isDigit 10 x = false := by
            rcases h.2.1 with rfl | rfl <;> decide
          simp [magnitude, leadingZero, hdigit, hexDigits, h.2.1]
      next h =>
          refine inBase_eight_eq_magnitude fun hx => ?_
          have hc : isDigit 16 c = false := by simpa [hx] using h
          exact inBase_eq_none_of_mem List.mem_cons_self hc
  next rest hshort =>
      simp only [if_true]
      cases rest with
      | nil => decide
      | cons x rest =>
          obtain rfl : rest = [] := by
            cases rest with
            | nil => rfl
            | cons c rest => exact absurd rfl (hshort x c rest)
          exact inBase_eight_eq_magnitude fun _ => rfl
  next hlong hzero =>
      have hleading : leadingZero u = false := by
        unfold leadingZero
        split
        next d rest => exact absurd rfl (hzero (d :: rest))
        next => rfl
      have hhex : hexDigits u = none := by
        unfold hexDigits
        split
        next d rest => exact absurd rfl (hzero (d :: rest))
        next => rfl
      simp [magnitude, hleading, hhex]

theorem takeWhile_dropWhile_all {digits : CString} {base : ℕ} :
    (digits.takeWhile (isDigit base) ≠ [] ∧ digits.dropWhile (isDigit base) = []) ↔
      digits ≠ [] ∧ digits.all (isDigit base) = true := by
  rw [List.dropWhile_eq_nil_iff, List.all_eq_true]
  constructor
  · rintro ⟨hne, hall⟩
    refine ⟨?_, hall⟩
    rintro rfl
    exact hne rfl
  · rintro ⟨hne, hall⟩
    rw [List.takeWhile_eq_self_iff.mpr hall]
    exact ⟨hne, hall⟩

/-- A conversion with base zero reads all of a text without leading white space
when the text is a sign and a magnitude. -/
theorem scan_complete_iff {s : CString} (hspace : s.dropWhile isspace = s) {negative : Bool}
    {n : ℕ} : scan 0 s = some (negative, n, []) ↔
      negative = (sign s).1 ∧ magnitude (sign s).2 = some n := by
  rw [← inBase_basePrefix_zero]
  simp only [scan, hspace, inBase]
  generalize hbase : basePrefix 0 (sign s).2 = selected
  obtain ⟨base, digits⟩ := selected
  have hall := @takeWhile_dropWhile_all digits base
  by_cases hfull : digits ≠ [] ∧ digits.all (isDigit base) = true
  · have hrest := (hall.mpr hfull).2
    have hself : digits.takeWhile (isDigit base) = digits :=
      List.takeWhile_eq_self_iff.mpr (List.all_eq_true.mp hfull.2)
    simp only [hself, if_neg hfull.1, if_pos hfull, hrest, Option.some.injEq, Prod.mk.injEq,
      and_true, eq_comm (a := negative)]
  · simp only [if_neg hfull, reduceCtorEq, and_false, iff_false]
    split
    next => simp
    next hne =>
        intro h
        simp only [Option.some.injEq, Prod.mk.injEq] at h
        exact hfull (hall.mp ⟨hne, h.2.2⟩)

end MonitoringTools.CNumbers
