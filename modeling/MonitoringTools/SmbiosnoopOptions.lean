import MonitoringTools.CNumbers
import MonitoringTools.ErrorTracers

/-!
# The filter options of smbiosnoop

Unlike its siblings smbiosnoop rejects a list as soon as a token is no number in
range or the array is full. It converts with base zero, though, so a token may
also be octal, and an error may be negative. The help and the documentation
know decimal and hexadecimal numbers only.
-/
namespace MonitoringTools.SmbiosnoopOptions
open BpfHelpers DiagEvents ErrorTracers CStrings CNumbers

def maxSmbStatusCodes : ℕ := 256

/-- The conversion of a command and its checks. -/
def readCmd (token : CString) : Option UInt16 :=
  let command := strtol 0 token
  if command.erange ∨ command.rest ≠ [] ∨ command.value < 0 ∨ maxSmbCommands ≤ command.value then
    none
  else some (UInt16.ofNat command.value.toNat)

/-- The conversion of an error and its checks. -/
def readErr (token : CString) : Option UInt32 :=
  let status := strtoull 0 token
  if status.erange ∨ status.rest ≠ [] ∨ status.value = 0 ∨ 4294967295 < status.value then none
  else some (UInt32.ofNat status.value.toNat)

section Lists
variable {V : Type}

/-- One round of the loop of either parser; an error is its warning. -/
def parseToken (read : CString → Option V) (invalid tooMany : CString) (cap : ℕ) (filter : List V)
    (token : CString) : Except CString (List V) :=
  match read token with
  | none => .error (invalid ++ token ++ cstr "\n")
  | some v => if cap ≤ filter.length then .error tooMany else .ok (filter ++ [v])

/-- Either parser, from an empty filter. The copy of the argument may fail; after
a warning the process ends, so what the array holds then is left out. -/
def parseList (read : CString → Option V) (invalid tooMany : CString) (cap : ℕ) (memory : Bool)
    (arg : CString) : ℤ × List V :=
  if memory then
    match (strtok arg (cstr ",")).foldlM (parseToken read invalid tooMany cap) [] with
    | .error _ => (-1, [])
    | .ok filter => (filter.length, filter)
  else (-1, [])

end Lists

def parseCmdList (memory : Bool) (arg : CString) : ℤ × List UInt16 :=
  parseList readCmd (cstr "Invalid SMB command: ") (cstr "Too many SMB commands\n") maxSmbCommands
    memory arg

def parseErrList (memory : Bool) (arg : CString) : ℤ × List UInt32 :=
  parseList readErr (cstr "Invalid NTSTATUS value: ") (cstr "Too many NTSTATUS values\n")
    maxSmbStatusCodes memory arg

/-- The integer that a sign and a magnitude write. -/
def signed (negative : Bool) (n : ℕ) : ℤ := if negative then -n else n

/-- The integer a token writes in decimal, or in hexadecimal behind `0x`. -/
def written (token : CString) : Option ℤ :=
  let (negative, digits) := sign token
  (match hexDigits digits with
    | some digits => inBase 16 digits
    | none => inBase 10 digits).map (signed negative)

/-- The integer of a token by the conventions of C, where a leading zero makes it octal. -/
def asRead (token : CString) : Option ℤ :=
  let (negative, digits) := sign token
  (magnitude digits).map (signed negative)

def LeadingZero (token : CString) : Prop := leadingZero (sign token).2 = true

/-- The command numbers. -/
def cmdOf (v : ℤ) : Option UInt16 :=
  if 0 ≤ v ∧ v < maxSmbCommands then some (UInt16.ofNat v.toNat) else none

/-- The errors. -/
def errOf (v : ℤ) : Option UInt32 :=
  if 1 ≤ v ∧ v ≤ 4294967295 then some (UInt32.ofNat v.toNat) else none

/-- The conversion to `unsigned long long` takes a negative number modulo 2^64. -/
def wrapped (v : ℤ) : Option ℤ :=
  if -18446744073709551616 < v ∧ v < 18446744073709551616 then some (v % 18446744073709551616)
  else none

/-- A token as `strtok` finds it, without white space. -/
def Clean (token : CString) : Prop := token ≠ [] ∧ ∀ c ∈ token, isspace c = false

theorem Clean.dropWhile {token : CString} (h : Clean token) :
    token.dropWhile isspace = token := by
  rw [List.dropWhile_eq_self_iff]
  intro hlength
  rw [h.2 _ (List.getElem_mem hlength)]
  exact Bool.false_ne_true

theorem asRead_eq_scan {token : CString} (h : Clean token) : asRead token =
    (scan 0 token).bind fun found =>
      if found.2.2 = [] then some (signed found.1 found.2.1) else none := by
  have hscan := @scan_complete_iff token h.dropWhile
  simp only [asRead]
  cases hmagnitude : magnitude (sign token).2 with
  | some n =>
      rw [hscan.mpr ⟨rfl, hmagnitude⟩]
      rfl
  | none =>
      cases hfound : scan 0 token with
      | none => rfl
      | some found =>
          obtain ⟨negative, n, rest⟩ := found
          have hrest : rest ≠ [] := by
            rintro rfl
            rw [(hscan.mp hfound).2] at hmagnitude
            cases hmagnitude
          simp [hrest]

/-- The value of a conversion that reads everything within its range. -/
def complete (p : Parsed) : Option ℤ := if p.erange ∨ p.rest ≠ [] then none else some p.value

theorem complete_of_rest {p : Parsed} (h : p.rest ≠ []) : complete p = none := if_pos (.inr h)

theorem complete_bind {V : Type} {p : Parsed} {fails : Prop} [Decidable fails] {out : ℤ → Option V}
    {v : V} (hfails : fails → out p.value = none) (hpasses : ¬ fails → out p.value = some v) :
    (if p.erange = true ∨ p.rest ≠ [] ∨ fails then none else some v) = (complete p).bind out := by
  rw [complete]
  by_cases hbad : p.erange = true ∨ p.rest ≠ []
  · rw [if_pos (hbad.imp_right .inl), if_pos hbad, Option.bind_none]
  · rw [if_neg hbad, Option.bind_some]
    by_cases h : fails
    · rw [if_pos (.inr (.inr h)), hfails h]
    · rw [if_neg, hpasses h]
      rintro (herange | hrest | hfail)
      · exact hbad (.inl herange)
      · exact hbad (.inr hrest)
      · exact h hfail

theorem strtol_complete {token : CString} (h : Clean token) : complete (strtol 0 token) =
    (asRead token).filter fun v => longMin ≤ v ∧ v ≤ longMax := by
  rw [asRead_eq_scan h, strtol_eq_scan]
  cases scan 0 token with
  | none => exact complete_of_rest h.1
  | some found =>
      obtain ⟨negative, n, rest⟩ := found
      simp only [Option.bind_some, signed]
      generalize (if negative = true then -(n : ℤ) else n) = v
      by_cases hrest : rest = []
      · by_cases hhigh : longMax < v
        · simp [if_pos hhigh, complete, hrest, Option.filter, show ¬ v ≤ longMax by omega]
        · by_cases hlow : v < longMin
          · simp [if_neg hhigh, if_pos hlow, complete, hrest, Option.filter,
              show ¬ longMin ≤ v by omega]
          · simp [if_neg hhigh, if_neg hlow, complete, hrest, Option.filter,
              show longMin ≤ v ∧ v ≤ longMax by omega]
      · rw [if_neg hrest, Option.filter_none]
        apply complete_of_rest
        split_ifs <;> exact hrest

theorem strtoull_complete {token : CString} (h : Clean token) :
    complete (strtoull 0 token) = (asRead token).bind wrapped := by
  rw [asRead_eq_scan h, strtoull]
  cases scan 0 token with
  | none => exact complete_of_rest h.1
  | some found =>
      obtain ⟨negative, n, rest⟩ := found
      have hwidth : ullongMax = 18446744073709551615 := rfl
      have hmodulus : (ullongMax : ℤ) + 1 = 18446744073709551616 := rfl
      have hsigned : (if negative = true then -(n : ℤ) else n) = signed negative n := rfl
      have hfits : (-18446744073709551616 < signed negative n ∧
          signed negative n < 18446744073709551616) ↔ ¬ ullongMax < n := by
        cases negative <;> simp [signed] <;> omega
      simp only [Option.bind_some, hsigned, hmodulus]
      by_cases hrest : rest = []
      · by_cases hhigh : ullongMax < n
        · have hnone : wrapped (signed negative n) = none :=
            if_neg (mt hfits.mp (not_not.mpr hhigh))
          simp [if_pos hhigh, complete, hrest, hnone]
        · have hsome : wrapped (signed negative n) =
              some (signed negative n % 18446744073709551616) := if_pos (hfits.mpr hhigh)
          simp [if_neg hhigh, complete, hrest, hsome]
      · rw [if_neg hrest, Option.bind_none]
        apply complete_of_rest
        split_ifs <;> exact hrest

theorem readCmd_eq {token : CString} (h : Clean token) :
    readCmd token = (asRead token).bind cmdOf := by
  have hmax : (maxSmbCommands : ℤ) = 20 := rfl
  have hread : readCmd token = (complete (strtol 0 token)).bind cmdOf := by
    refine complete_bind (fun h => ?_) fun h => ?_
    · rw [cmdOf, if_neg (by omega)]
    · rw [cmdOf, if_pos (by omega)]
  rw [hread, strtol_complete h]
  cases asRead token with
  | none => rfl
  | some v =>
      by_cases hlong : longMin ≤ v ∧ v ≤ longMax
      · simp [Option.filter, hlong]
      · have hout : cmdOf v = none := by
          simp only [longMin, longMax] at hlong
          rw [cmdOf, if_neg (by omega)]
        simp [Option.filter, hlong, hout]

theorem strtoull_value_nonneg (token : CString) : 0 ≤ (strtoull 0 token).value := by
  unfold strtoull
  split
  next => exact le_rfl
  next negative n rest =>
      split
      · exact Int.natCast_nonneg _
      · exact Int.emod_nonneg _ (by decide)

theorem readErr_eq {token : CString} (h : Clean token) :
    readErr token = ((asRead token).bind wrapped).bind errOf := by
  rw [← strtoull_complete h]
  have hnonneg := strtoull_value_nonneg token
  refine complete_bind (fun h => ?_) fun h => ?_
  · rw [errOf, if_neg (by omega)]
  · rw [errOf, if_pos (by omega)]

section Lists
variable {V : Type} {read documented : CString → Option V} {cap : ℕ} {tokens : List CString}

/-- At most as many tokens as the cap, each with a value. -/
def Valid (value : CString → Option V) (cap : ℕ) (tokens : List CString) : Prop :=
  tokens.length ≤ cap ∧ ∀ token ∈ tokens, (value token).isSome = true

instance (value : CString → Option V) (cap : ℕ) (tokens : List CString) :
    Decidable (Valid value cap tokens) := inferInstanceAs (Decidable (_ ∧ _))

theorem parseTokens_ok {invalid tooMany : CString} {filter out : List V}
    (hfilter : filter.length ≤ cap) :
    tokens.foldlM (parseToken read invalid tooMany cap) filter = .ok out ↔
      filter.length + tokens.length ≤ cap ∧ (∀ token ∈ tokens, (read token).isSome = true) ∧
        out = filter ++ tokens.filterMap read := by
  induction tokens generalizing filter with
  | nil => simp [pure, Except.pure, hfilter, eq_comm (a := out)]
  | cons token tokens ih =>
      rw [List.foldlM_cons]
      simp only [parseToken]
      cases hread : read token with
      | none => simp [bind, Except.bind, hread]
      | some v =>
          simp only
          split
          next hfull =>
              have hover : ¬ filter.length + (token :: tokens).length ≤ cap := by
                rw [List.length_cons]
                omega
              simp only [bind, Except.bind, reduceCtorEq, hover, false_and]
          next hroom =>
              have hlonger : (filter ++ [v]).length ≤ cap := by
                rw [List.length_append, List.length_singleton]
                omega
              have hcount : (filter ++ [v]).length + tokens.length =
                  filter.length + (token :: tokens).length := by
                rw [List.length_append, List.length_singleton, List.length_cons]
                omega
              refine (ih hlonger).trans ?_
              rw [hcount, List.forall_mem_cons, hread, List.filterMap_cons_some hread,
                List.append_assoc, List.singleton_append]
              simp only [Option.isSome_some, true_and]

theorem parseList_accepts {invalid tooMany arg : CString} :
    (0 ≤ (parseList read invalid tooMany cap true arg).1 ↔ Valid read cap (strtok arg (cstr ","))) ∧
    (Valid read cap (strtok arg (cstr ",")) → (parseList read invalid tooMany cap true arg).2 =
      (strtok arg (cstr ",")).filterMap read) := by
  have hok := @parseTokens_ok V read cap (strtok arg (cstr ",")) invalid tooMany []
  simp only [parseList, if_true, Valid]
  cases hparsed : (strtok arg (cstr ",")).foldlM (parseToken read invalid tooMany cap) [] with
  | error message =>
      have hinvalid : ¬ ((strtok arg (cstr ",")).length ≤ cap ∧
          ∀ token ∈ strtok arg (cstr ","), (read token).isSome = true) := by
        rintro ⟨hlength, hall⟩
        have := (@hok ((strtok arg (cstr ",")).filterMap read) (Nat.zero_le _)).mpr
          ⟨by simpa using hlength, hall, rfl⟩
        rw [hparsed] at this
        cases this
      exact ⟨iff_of_false (by simp) hinvalid, fun h => absurd h hinvalid⟩
  | ok filter =>
      obtain ⟨hlength, hall, hfilter⟩ := (hok (Nat.zero_le _)).mp hparsed
      simp only [List.length_nil, Nat.zero_add] at hlength
      exact ⟨iff_of_true (Int.natCast_nonneg _) ⟨hlength, hall⟩, fun _ => hfilter⟩

/-- Two readings with values everywhere give the same list only if they agree. -/
theorem readings_agree (hread : ∀ token ∈ tokens, (read token).isSome = true)
    (hdocumented : ∀ token ∈ tokens, (documented token).isSome = true)
    (h : tokens.filterMap read = tokens.filterMap documented) :
    ∀ token ∈ tokens, read token = documented token := by
  induction tokens with
  | nil => simp
  | cons token tokens ih =>
      rw [List.forall_mem_cons] at hread hdocumented ⊢
      obtain ⟨v, hv⟩ := Option.isSome_iff_exists.mp hread.1
      obtain ⟨v', hv'⟩ := Option.isSome_iff_exists.mp hdocumented.1
      rw [List.filterMap_cons_some hv, List.filterMap_cons_some hv', List.cons.injEq] at h
      exact ⟨by rw [hv, hv', h.1], ih hread.2 hdocumented.2 h.2⟩

/-- A parser accepts what the documentation does and keeps those values in order,
and the probe traces by them. -/
def Follows (result : ℤ × List V) (documented : CString → Option V) (cap : ℕ)
    (traces : List V → List V → Prop) (tokens : List CString) : Prop :=
  (0 ≤ result.1 ↔ Valid documented cap tokens) ∧
  (0 ≤ result.1 → result.2 = tokens.filterMap documented ∧
    traces result.2 (tokens.filterMap documented))

/-- There are too many tokens, or none is misread, or either reading finds one
without value. Without memory for the copy of the argument the list is not valid. -/
def ReadRight (misread : CString → Prop) (cReading documented : CString → Option V) (cap : ℕ)
    (memory : Bool) (tokens : List CString) : Prop :=
  if memory then cap < tokens.length ∨ (∀ token ∈ tokens, ¬ misread token) ∨
    ((∃ token ∈ tokens, cReading token = none) ∧ ∃ token ∈ tokens, documented token = none)
  else ¬ Valid documented cap tokens

theorem valid_readings_iff : ((Valid read cap tokens ↔ Valid documented cap tokens) ∧
      (Valid read cap tokens → tokens.filterMap read = tokens.filterMap documented)) ↔
    cap < tokens.length ∨ (∀ token ∈ tokens, read token = documented token) ∨
      ((∃ token ∈ tokens, read token = none) ∧ ∃ token ∈ tokens, documented token = none) := by
  have hnone : ∀ value : CString → Option V, (∃ token ∈ tokens, value token = none) ↔
      ¬ ∀ token ∈ tokens, (value token).isSome = true := by
    intro value
    simp [Option.isSome_iff_ne_none]
  by_cases hlength : tokens.length ≤ cap
  · have hcap : ¬ cap < tokens.length := by omega
    simp only [Valid, hlength, true_and, hcap, false_or, hnone]
    constructor
    · rintro ⟨hiff, hsame⟩
      by_cases hread : ∀ token ∈ tokens, (read token).isSome = true
      · exact .inl (readings_agree hread (hiff.mp hread) (hsame hread))
      · exact .inr ⟨hread, mt hiff.mpr hread⟩
    · rintro (hagree | ⟨hread, hdocumented⟩)
      · refine ⟨forall₂_congr fun token htoken => by rw [hagree token htoken], fun _ => ?_⟩
        exact List.filterMap_congr hagree
      · exact ⟨iff_of_false hread hdocumented, fun h => absurd h hread⟩
  · have hcap : cap < tokens.length := by omega
    simp [Valid, hlength, hcap]

/-- A parser whose conversion is a reading by the conventions of C follows the
documentation exactly when the tokens are read right. -/
theorem follows_iff {invalid tooMany arg : CString} {cReading : CString → Option V}
    {misread : CString → Prop} {traces : List V → List V → Prop} {memory : Bool}
    (hread : ∀ token ∈ strtok arg (cstr ","), read token = cReading token)
    (hmisread : ∀ token, misread token ↔ cReading token ≠ documented token)
    (htraces : ∀ filter, traces filter filter) :
    Follows (parseList read invalid tooMany cap memory arg) documented cap traces
        (strtok arg (cstr ",")) ↔
      ReadRight misread cReading documented cap memory (strtok arg (cstr ",")) := by
  cases memory with
  | false => simp [Follows, ReadRight, parseList]
  | true =>
      obtain ⟨haccepts, hkeeps⟩ := @parseList_accepts V read cap invalid tooMany arg
      have hagree : (∀ token ∈ strtok arg (cstr ","), ¬ misread token) ↔
          ∀ token ∈ strtok arg (cstr ","), read token = documented token := by
        refine forall₂_congr fun token htoken => ?_
        rw [hmisread, not_not, hread token htoken]
      have hnone : (∃ token ∈ strtok arg (cstr ","), cReading token = none) ↔
          ∃ token ∈ strtok arg (cstr ","), read token = none :=
        exists_congr fun token => and_congr_right fun htoken => by rw [hread token htoken]
      rw [ReadRight, if_pos rfl, hagree, hnone, ← valid_readings_iff, Follows, haccepts]
      refine and_congr_right fun _ => forall_congr' fun hvalid => ?_
      rw [hkeeps hvalid]
      constructor
      · exact fun h => h.1
      · intro hsame
        exact ⟨hsame, hsame ▸ htraces _⟩

end Lists

/-- The values the documented syntax gives, and those C reads. -/
def documentedCmd (token : CString) : Option UInt16 := (written token).bind cmdOf

def documentedErr (token : CString) : Option UInt32 := (written token).bind errOf

def cCmd (token : CString) : Option UInt16 := (asRead token).bind cmdOf

def cErr (token : CString) : Option UInt32 := ((asRead token).bind wrapped).bind errOf

/-- A negative number which is an error modulo 2^64. -/
def Wraps (token : CString) : Prop :=
  ∃ v ∈ asRead token, -18446744073709551616 < v ∧ v ≤ -18446744069414584321

instance (token : CString) : Decidable (LeadingZero token) :=
  inferInstanceAs (Decidable (_ = true))

/-- A number with a leading zero that is another command, or none, in octal. -/
def MisreadCmd (token : CString) : Prop := LeadingZero token ∧ cCmd token ≠ documentedCmd token

/-- A number with a leading zero that is another error, or none, in octal, or a
negative number that is one modulo 2^64. -/
def MisreadErr (token : CString) : Prop :=
  (LeadingZero token ∨ Wraps token) ∧ cErr token ≠ documentedErr token

theorem asRead_eq_written {token : CString} (h : ¬ LeadingZero token) :
    asRead token = written token := by
  unfold LeadingZero at h
  unfold asRead written
  generalize sign token = parts at h ⊢
  obtain ⟨negative, digits⟩ := parts
  exact congrArg (Option.map (signed negative)) (if_neg h)

theorem misreadCmd_iff {token : CString} : MisreadCmd token ↔ cCmd token ≠ documentedCmd token := by
  constructor
  · exact fun h => h.2
  · intro h
    refine ⟨?_, h⟩
    by_contra hzero
    rw [cCmd, documentedCmd, asRead_eq_written hzero] at h
    exact h rfl

theorem misreadErr_iff {token : CString} : MisreadErr token ↔ cErr token ≠ documentedErr token := by
  constructor
  · exact fun h => h.2
  · intro h
    refine ⟨?_, h⟩
    by_contra hnot
    rw [not_or] at hnot
    obtain ⟨hzero, hwraps⟩ := hnot
    rw [cErr, documentedErr, ← asRead_eq_written hzero] at h
    cases hread : asRead token with
    | none => simp [hread] at h
    | some v =>
        have hfree : ¬ (-18446744073709551616 < v ∧ v ≤ -18446744069414584321) := fun hv =>
          hwraps ⟨v, hread, hv⟩
        apply h
        rw [hread, Option.bind_some, Option.bind_some, wrapped]
        by_cases hfits : -18446744073709551616 < v ∧ v < 18446744073709551616
        · rw [if_pos hfits, Option.bind_some]
          by_cases hneg : v < 0
          · have hwrap : v % 18446744073709551616 = v + 18446744073709551616 := by omega
            rw [errOf, errOf, if_neg (by omega), if_neg (by omega)]
          · rw [Int.emod_eq_of_lt (by omega) hfits.2]
        · rw [if_neg hfits, Option.bind_none, errOf, if_neg (by omega)]

/-- The probe, behind filters whose command part was loaded from the array, emits the
failed responses of the given commands that pass the error part. -/
def TracesCmds (filter values : List UInt16) : Prop :=
  ∀ (updates : UInt16 → Bool) (f : Filters UInt32), f.filterCmds = 1 →
    allow updates filter = some f.allowlistCmds →
    ∀ (c : DiagContext) (ring : Fill) (args : Smb3CmdErrArgs), ring.room = true →
      args.status ≠ 0 → ((traceSmb3CmdErr f 0 c ring args).isSome = true ↔
        (f.filterErrors = 0 ∨ (f.allowlistErrors.lookup args.status).isSome = true) ∧
          args.cmd ∈ values)

/-- The same of the error part. -/
def TracesErrs (filter values : List UInt32) : Prop :=
  ∀ (updates : UInt32 → Bool) (f : Filters UInt32), f.filterErrors = 1 →
    allow updates filter = some f.allowlistErrors →
    ∀ (c : DiagContext) (ring : Fill) (args : Smb3CmdErrArgs), ring.room = true →
      args.status ≠ 0 → ((traceSmb3CmdErr f 0 c ring args).isSome = true ↔
        args.status ∈ values ∧
          (f.filterCmds = 0 ∨ (f.allowlistCmds.lookup args.cmd).isSome = true))

theorem traceSmb3CmdErr_isSome {f : Filters UInt32} {c : DiagContext} {ring : Fill}
    {args : Smb3CmdErrArgs} (hroom : ring.room = true) (hstatus : args.status ≠ 0) :
    (traceSmb3CmdErr f 0 c ring args).isSome = true ↔ f.pass args.status args.cmd = true := by
  rw [traceSmb3CmdErr, if_neg hstatus]
  cases f.pass args.status args.cmd with
  | false => simp
  | true => simp [submitEvent, reserve, getFlags, hroom]

theorem tracesCmds_self (filter : List UInt16) : TracesCmds filter filter := by
  intro updates f hset hallow c ring args hroom hstatus
  rw [traceSmb3CmdErr_isSome hroom hstatus, Filters.pass, Bool.and_eq_true, Bool.or_eq_true,
    Bool.or_eq_true, allow_lookup hallow]
  simp [hset]

theorem tracesErrs_self (filter : List UInt32) : TracesErrs filter filter := by
  intro updates f hset hallow c ring args hroom hstatus
  rw [traceSmb3CmdErr_isSome hroom hstatus, Filters.pass, Bool.and_eq_true, Bool.or_eq_true,
    Bool.or_eq_true, allow_lookup hallow]
  simp [hset]

def FollowsCmds (memory : Bool) (arg : CString) : Prop :=
  Follows (parseCmdList memory arg) documentedCmd maxSmbCommands TracesCmds
    (strtok arg (cstr ","))

def FollowsErrs (memory : Bool) (arg : CString) : Prop :=
  Follows (parseErrList memory arg) documentedErr maxSmbStatusCodes TracesErrs
    (strtok arg (cstr ","))

def CmdsReadRight (memory : Bool) (arg : CString) : Prop :=
  ReadRight MisreadCmd cCmd documentedCmd maxSmbCommands memory (strtok arg (cstr ","))

def ErrsReadRight (memory : Bool) (arg : CString) : Prop :=
  ReadRight MisreadErr cErr documentedErr maxSmbStatusCodes memory (strtok arg (cstr ","))

/-- On lists without white space, each of the two options follows the documentation
exactly when its tokens are read right. -/
theorem options_follow_documentation_iff {memory : Bool} {arg : CString}
    (hspace : ∀ token ∈ strtok arg (cstr ","), ∀ c ∈ token, isspace c = false) :
    (FollowsCmds memory arg ↔ CmdsReadRight memory arg) ∧
    (FollowsErrs memory arg ↔ ErrsReadRight memory arg) := by
  have hclean : ∀ token ∈ strtok arg (cstr ","), Clean token := fun token htoken =>
    ⟨ne_nil_of_mem_strtok htoken, hspace token htoken⟩
  constructor
  · exact follows_iff (fun token htoken => readCmd_eq (hclean token htoken))
      (fun _ => misreadCmd_iff) tracesCmds_self
  · exact follows_iff (fun token htoken => readErr_eq (hclean token htoken))
      (fun _ => misreadErr_iff) tracesErrs_self

theorem no_space_of_all {arg : CString}
    (h : ((strtok arg (cstr ",")).all fun token => token.all fun c => !isspace c) = true) :
    ∀ token ∈ strtok arg (cstr ","), ∀ c ∈ token, isspace c = false := by
  simpa using h

/-- `5,0x08` is read right as a list of commands. -/
theorem options_follow_documentation_iff_hexadecimal :
    (FollowsCmds true (cstr "5,0x08") ↔ CmdsReadRight true (cstr "5,0x08")) ∧
    (FollowsErrs true (cstr "5,0x08") ↔ ErrsReadRight true (cstr "5,0x08")) :=
  options_follow_documentation_iff (no_space_of_all (by decide +kernel))

/-- `-c 010` is command 10 by the documentation and command 8 in octal. -/
theorem options_follow_documentation_fails_octal :
    ¬ ∀ arg : CString, (∀ token ∈ strtok arg (cstr ","), ∀ c ∈ token, isspace c = false) →
      FollowsCmds true arg ∧ FollowsErrs true arg := by
  intro h
  obtain ⟨hcmds, -⟩ := h (cstr "010") (no_space_of_all (by decide +kernel))
  have hkept := (hcmds.2 (by decide +kernel)).1
  exact absurd hkept (by decide +kernel)

end MonitoringTools.SmbiosnoopOptions
