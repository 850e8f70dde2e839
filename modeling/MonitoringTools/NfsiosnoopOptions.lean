import MonitoringTools.BinarySearch
import MonitoringTools.CommandLists
import MonitoringTools.ErrorTracers

/-!
# The filter options of nfsiosnoop

Both options take comma-separated numbers and fill an array up to a cap. The
commands are read with `atoi`; the errors with `strtol`, which rejects what is
not a positive number, and then narrowed to an `int` before they are looked up
in the table of known errors. The arrays become the allowlists of the probes.
-/
namespace MonitoringTools.NfsiosnoopOptions
open BpfHelpers DiagEvents ErrorTracers CStrings CNumbers BinarySearch

def maxErrorCodes : ℕ := 113

def nfs4Errors : List ℤ :=
  [1, 2, 5, 6, 13, 17, 18, 20, 21, 22, 27, 28, 30, 31, 63, 66,
    69, 70, 10001, 10003, 10004, 10005, 10006, 10007, 10008, 10009, 10010, 10011,
    10012, 10013, 10014, 10015, 10016, 10017, 10018, 10019, 10020, 10021, 10022,
    10023, 10024, 10025, 10026, 10027, 10028, 10029, 10030, 10031, 10032, 10033,
    10034, 10035, 10036, 10037, 10038, 10039, 10040, 10041, 10042, 10043, 10044,
    10045, 10046, 10047, 10048, 10049, 10050, 10051, 10052, 10053, 10054, 10055,
    10056, 10057, 10058, 10059, 10060, 10061, 10062, 10063, 10064, 10065, 10066,
    10067, 10068, 10069, 10070, 10071, 10072, 10074, 10075, 10076, 10077, 10078,
    10079, 10080, 10081, 10082, 10083, 10084, 10085, 10086, 10087, 10088, 10089,
    10090, 10091, 10092, 10093, 10094, 10095, 10096, 10097]

structure Options where
  cmdFilter : List UInt16
  cmdFilterSet : Bool
  errFilter : List Int32
  errFilterSet : Bool
  deriving DecidableEq, Repr

def Options.initial : Options := ⟨[], false, [], false⟩

/-- One round of the loop of `parse_cmd_list`. -/
def parseCmd (cmdFilter : List UInt16) (token : CString) : List UInt16 :=
  let cmd := atoi token
  if 0 ≤ cmd ∧ cmd < maxNfsCommands ∧ cmdFilter.length < maxNfsCommands then
    cmdFilter ++ [UInt16.ofNat cmd.toNat]
  else cmdFilter

/-- `parse_cmd_list`. The copy of its argument may fail. -/
def parseCmdList (memory : Bool) (arg : CString) (cmdFilter : List UInt16) : ℤ × List UInt16 :=
  if memory then
    let cmdFilter := (strtok arg (cstr ",")).foldl parseCmd cmdFilter
    (cmdFilter.length, cmdFilter)
  else (-1, cmdFilter)

def validateErrCode (code : ℤ) : Bool := (bsearch nfs4Errors maxErrorCodes code).isSome

/-- The cast of a `long` to an `int`. -/
def toInt (code : ℤ) : ℤ := code.bmod 4294967296

/-- What the loop of `parse_err_list` rejects. -/
def invalidErr (token : CString) : Bool :=
  let code := strtol 10 token
  code.rest ≠ [] ∨ code.erange ∨ code.value ≤ 0

/-- One round of the loop of `parse_err_list`. -/
def parseErr (errFilter : List Int32) (token : CString) : Option (List Int32) :=
  if invalidErr token then none
  else
    let code := toInt (strtol 10 token).value
    if validateErrCode code ∧ errFilter.length < maxErrorCodes then
      some (errFilter ++ [Int32.ofInt code])
    else some errFilter

/-- `parse_err_list`. After an invalid token the process ends, so what the array
holds then is left out. -/
def parseErrList (memory : Bool) (arg : CString) (errFilter : List Int32) : ℤ × List Int32 :=
  if memory then
    match (strtok arg (cstr ",")).foldlM parseErr errFilter with
    | none => (-1, errFilter)
    | some errFilter => (errFilter.length, errFilter)
  else (-1, errFilter)

/-- One of the two options on the command line, and whether the copy of its
argument finds memory. -/
inductive Opt where
  | cmds (memory : Bool) (arg : CString)
  | errors (memory : Bool) (arg : CString)
  deriving DecidableEq, Repr

/-- The two options in `parse_arg`; an error is the warning before the usage
message, with which the process ends. -/
def parseArg (o : Options) : Opt → Except CString Options
  | .cmds memory arg =>
      let (err, cmdFilter) := parseCmdList memory arg o.cmdFilter
      if err < 0 then .error (cstr "Failed to parse commands: " ++ arg ++ cstr "\n")
      else if err = 0 then .error (cstr "No valid commands specified: " ++ arg ++ cstr "\n")
      else .ok {o with cmdFilter := cmdFilter, cmdFilterSet := true}
  | .errors memory arg =>
      let (err, errFilter) := parseErrList memory arg o.errFilter
      if err < 0 then .error (cstr "Failed to parse error codes: " ++ arg ++ cstr "\n")
      else if err = 0 then .error (cstr "No valid error codes specified: " ++ arg ++ cstr "\n")
      else .ok {o with errFilter := errFilter, errFilterSet := true}

/-- The start of `main`: the options in the order of the command line. -/
def parse (opts : List Opt) : Except CString Options := do
  let o ← opts.foldlM parseArg .initial
  if o.cmdFilterSet || o.errFilterSet then .ok o
  else .error (cstr "Must specify at least one of --cmds or --errors\n")

def updateAllowlistCmds (updates : UInt16 → Bool) (o : Options) : Option (HashMap UInt16 UInt8) :=
  if o.cmdFilterSet then allow updates o.cmdFilter else some ∅

def updateAllowlistErrors (updates : Int32 → Bool) (o : Options) : Option (HashMap Int32 UInt8) :=
  if o.errFilterSet then allow updates o.errFilter else some ∅

/-- From the command line to the filters the probes run with. -/
def load (opts : List Opt) (cmdUpdates : UInt16 → Bool) (errUpdates : Int32 → Bool) :
    Option (Filters Int32) :=
  match parse opts with
  | .error _ => none
  | .ok o => do
      let allowlistCmds ← updateAllowlistCmds cmdUpdates o
      let allowlistErrors ← updateAllowlistErrors errUpdates o
      some ⟨if o.errFilterSet then 1 else 0, if o.cmdFilterSet then 1 else 0, allowlistErrors,
        allowlistCmds⟩

section Readings
variable {V : Type}

/-- What the tokens read as, up to a cap. -/
def readings (read : CString → Option V) (cap : ℕ) (tokens : List CString) : List V :=
  (tokens.filterMap read).take cap

theorem readings_concat (read : CString → Option V) (cap : ℕ) (tokens : List CString)
    (token : CString) : readings read cap (tokens ++ [token]) = match read token with
      | none => readings read cap tokens
      | some v =>
          if (readings read cap tokens).length < cap then readings read cap tokens ++ [v]
          else readings read cap tokens := by
  cases hread : read token with
  | none => simp [readings, hread]
  | some v =>
      have hlength : (readings read cap tokens).length < cap ↔
          (tokens.filterMap read).length < cap := by
        rw [readings, List.length_take]
        omega
      have hlast : readings read cap (tokens ++ [token]) =
          (tokens.filterMap read ++ [v]).take cap := by
        rw [readings, List.filterMap_append, List.filterMap_cons_some hread, List.filterMap_nil]
      rw [hlast]
      by_cases hroom : (tokens.filterMap read).length < cap
      · simp only [if_pos (hlength.mpr hroom)]
        have hlonger : (tokens.filterMap read ++ [v]).length ≤ cap := by
          rw [List.length_append, List.length_singleton]
          omega
        rw [readings, List.take_of_length_le hlonger, List.take_of_length_le (by omega)]
      · simp only [if_neg (mt hlength.mp hroom)]
        rw [readings, List.take_append_of_le_length (by omega)]

theorem mem_readings {read : CString → Option V} {cap : ℕ} {tokens : List CString} {v : V} :
    v ∈ readings read cap tokens ↔ ∃ before token after, tokens = before ++ token :: after ∧
      before.countP (fun t => (read t).isSome) < cap ∧ read token = some v := by
  induction tokens generalizing cap with
  | nil => simp [readings]
  | cons token tokens ih =>
      rw [CommandLists.exists_split_cons]
      simp only [readings, List.countP_cons, List.countP_nil] at ih ⊢
      cases hread : read token with
      | none => simp [hread, ih]
      | some w =>
          rw [List.filterMap_cons_some hread]
          cases cap with
          | zero => simp
          | succ cap =>
              simp only [List.take_succ_cons, List.mem_cons, ih, Nat.zero_lt_succ, true_and,
                Option.some.injEq, Option.isSome_some, if_true, Nat.add_lt_add_iff_right,
                eq_comm (a := v)]

end Readings

def readCmd (token : CString) : Option UInt16 :=
  if 0 ≤ atoi token ∧ atoi token < maxNfsCommands then some (UInt16.ofNat (atoi token).toNat)
  else none

def readErr (token : CString) : Option Int32 :=
  let code := toInt (strtol 10 token).value
  if validateErrCode code then some (Int32.ofInt code) else none

/-- The tokens of all arguments of one option. -/
def cmdTokens (opts : List Opt) : List CString :=
  opts.flatMap fun
    | .cmds _ arg => strtok arg (cstr ",")
    | .errors _ _ => []

def errTokens (opts : List Opt) : List CString :=
  opts.flatMap fun
    | .cmds _ _ => []
    | .errors _ arg => strtok arg (cstr ",")

def cmdsGiven (opts : List Opt) : Bool :=
  opts.any fun
    | .cmds _ _ => true
    | .errors _ _ => false

def errorsGiven (opts : List Opt) : Bool :=
  opts.any fun
    | .cmds _ _ => false
    | .errors _ _ => true

theorem parseCmds_readings (tokens more : List CString) :
    more.foldl parseCmd (readings readCmd maxNfsCommands tokens) =
      readings readCmd maxNfsCommands (tokens ++ more) := by
  induction more using List.reverseRecOn with
  | nil => simp
  | append_singleton more token ih =>
      rw [List.foldl_concat, ih, ← List.append_assoc, readings_concat, parseCmd, readCmd]
      by_cases hrange : 0 ≤ atoi token ∧ atoi token < maxNfsCommands
      · simp [hrange]
      · rw [if_neg hrange, if_neg fun h => hrange ⟨h.1, h.2.1⟩]

theorem parseErrs_readings {tokens more : List CString} {errFilter : List Int32}
    (h : more.foldlM parseErr (readings readErr maxErrorCodes tokens) = some errFilter) :
    errFilter = readings readErr maxErrorCodes (tokens ++ more) ∧
      ∀ token ∈ more, invalidErr token = false := by
  induction more generalizing tokens with
  | nil =>
      cases h
      simp
  | cons token more ih =>
      rw [List.foldlM_cons, Option.bind_eq_bind, Option.bind_eq_some_iff] at h
      obtain ⟨next, hnext, hrest⟩ := h
      have hstep : invalidErr token = false ∧
          next = readings readErr maxErrorCodes (tokens ++ [token]) := by
        rw [parseErr] at hnext
        split at hnext
        next => cases hnext
        next hvalid =>
            refine ⟨by simpa using hvalid, ?_⟩
            rw [readings_concat, readErr]
            by_cases hknown : validateErrCode (toInt (strtol 10 token).value) = true
            · simp only [hknown, true_and, if_true] at hnext ⊢
              split at hnext <;> simp_all
            · simp_all
      obtain ⟨hvalid, rfl⟩ := hstep
      obtain ⟨hfilter, hmore⟩ := ih hrest
      refine ⟨by rw [hfilter, List.append_assoc, List.singleton_append], ?_⟩
      intro t ht
      rcases List.mem_cons.mp ht with rfl | ht
      · exact hvalid
      · exact hmore t ht

/-- What the command line leaves in the static variables. -/
def optionsOf (opts : List Opt) : Options :=
  ⟨readings readCmd maxNfsCommands (cmdTokens opts), cmdsGiven opts,
    readings readErr maxErrorCodes (errTokens opts), errorsGiven opts⟩

theorem parseArg_ok {opts : List Opt} {opt : Opt} {o : Options}
    (h : parseArg (optionsOf opts) opt = .ok o) :
    o = optionsOf (opts ++ [opt]) ∧ ∀ token ∈ errTokens [opt], invalidErr token = false := by
  cases opt with
  | cmds memory arg =>
      cases memory with
      | false => simp [parseArg, parseCmdList] at h
      | true =>
          simp only [parseArg, parseCmdList, optionsOf, parseCmds_readings, if_true] at h
          split_ifs at h
          cases h
          simp [optionsOf, cmdTokens, errTokens, cmdsGiven, errorsGiven]
  | errors memory arg =>
      cases memory with
      | false => simp [parseArg, parseErrList] at h
      | true =>
          simp only [parseArg, parseErrList, optionsOf, if_true] at h
          cases hfilter : (strtok arg (cstr ",")).foldlM parseErr
              (readings readErr maxErrorCodes (errTokens opts)) with
          | none => simp [hfilter] at h
          | some errFilter =>
              obtain ⟨rfl, hvalid⟩ := parseErrs_readings hfilter
              simp only [hfilter] at h
              split_ifs at h
              cases h
              refine ⟨by simp [optionsOf, cmdTokens, errTokens, cmdsGiven, errorsGiven], ?_⟩
              simpa [errTokens] using hvalid

theorem bind_eq_ok {ε α β : Type} {x : Except ε α} {f : α → Except ε β} {b : β} :
    x >>= f = .ok b ↔ ∃ a, x = .ok a ∧ f a = .ok b := by
  cases x <;> simp [bind, Except.bind]

theorem parseArgs_ok {opts more : List Opt} {o : Options}
    (h : more.foldlM parseArg (optionsOf opts) = .ok o) :
    o = optionsOf (opts ++ more) ∧ ∀ token ∈ errTokens more, invalidErr token = false := by
  induction more generalizing opts with
  | nil =>
      cases h
      simp [errTokens]
  | cons opt more ih =>
      rw [List.foldlM_cons, bind_eq_ok] at h
      obtain ⟨next, hstep, hrest⟩ := h
      obtain ⟨rfl, hvalid⟩ := parseArg_ok hstep
      obtain ⟨ho, hmore⟩ := ih hrest
      refine ⟨by rw [ho, List.append_assoc, List.singleton_append], ?_⟩
      intro token htoken
      rw [errTokens, List.flatMap_cons, List.mem_append] at htoken
      rcases htoken with hfirst | hlater
      · exact hvalid token (by simpa [errTokens] using hfirst)
      · exact hmore token hlater

theorem parse_ok {opts : List Opt} {o : Options} (h : parse opts = .ok o) :
    o = optionsOf opts ∧ ∀ token ∈ errTokens opts, invalidErr token = false := by
  rw [parse, bind_eq_ok] at h
  obtain ⟨parsed, hparsed, hset⟩ := h
  have hstart : Options.initial = optionsOf [] := rfl
  rw [hstart] at hparsed
  obtain ⟨rfl, hvalid⟩ := parseArgs_ok hparsed
  split at hset
  next =>
      cases hset
      exact ⟨rfl, hvalid⟩
  next => cases hset

theorem load_pass {opts : List Opt} {cmdUpdates : UInt16 → Bool} {errUpdates : Int32 → Bool}
    {f : Filters Int32} (h : load opts cmdUpdates errUpdates = some f) (error : Int32)
    (command : UInt16) : f.pass error command = true ↔
      (errorsGiven opts = true → error ∈ readings readErr maxErrorCodes (errTokens opts)) ∧
      (cmdsGiven opts = true → command ∈ readings readCmd maxNfsCommands (cmdTokens opts)) := by
  unfold load at h
  cases hparse : parse opts with
  | error message =>
      rw [hparse] at h
      cases h
  | ok o =>
      obtain ⟨rfl, -⟩ := parse_ok hparse
      simp only [hparse, Option.bind_eq_bind, Option.bind_eq_some_iff, Option.some.injEq] at h
      obtain ⟨cmds, hcmds, errors, herrors, rfl⟩ := h
      have hcmd : (cmds.lookup command).isSome = true ∨ cmdsGiven opts = false ↔
          (cmdsGiven opts = true → command ∈ readings readCmd maxNfsCommands (cmdTokens opts)) := by
        cases hgiven : cmdsGiven opts with
        | false => simp
        | true =>
            simp only [updateAllowlistCmds, optionsOf, hgiven, if_true] at hcmds
            simp [allow_lookup hcmds]
      have herror : (errors.lookup error).isSome = true ∨ errorsGiven opts = false ↔
          (errorsGiven opts = true →
            error ∈ readings readErr maxErrorCodes (errTokens opts)) := by
        cases hgiven : errorsGiven opts with
        | false => simp
        | true =>
            simp only [updateAllowlistErrors, optionsOf, hgiven, if_true] at herrors
            simp [allow_lookup herrors]
      have hpass : ∀ byErrors byCmds : Bool, Filters.pass ⟨if byErrors then 1 else 0,
          if byCmds then 1 else 0, errors, cmds⟩ error command = true ↔
            ((errors.lookup error).isSome = true ∨ byErrors = false) ∧
            ((cmds.lookup command).isSome = true ∨ byCmds = false) := by
        intro byErrors byCmds
        cases byErrors <;> cases byCmds <;> simp [Filters.pass]
      exact (hpass _ _).trans (and_congr herror hcmd)

theorem nfs4Errors_sorted : nfs4Errors.Pairwise (· < ·) :=
  List.IsChain.pairwise (by decide +kernel)

theorem validateErrCode_iff {code : ℤ} : validateErrCode code = true ↔ code ∈ nfs4Errors :=
  bsearch_isSome_iff nfs4Errors_sorted

/-- The command is in the table and some token of a `-c` writes it in decimal. -/
def WrittenCmd (opts : List Opt) (c : UInt16) : Prop :=
  c.toNat < maxNfsCommands ∧ ∃ token ∈ cmdTokens opts, decimal token = some (c.toNat : ℤ)

/-- The error is a known one and some token of a `-e` writes it in decimal. -/
def WrittenErr (opts : List Opt) (e : ℕ) : Prop :=
  (e : ℤ) ∈ nfs4Errors ∧ ∃ token ∈ errTokens opts, decimal token = some (e : ℤ)

/-- What the options ask for. -/
def Wanted (opts : List Opt) (e : ℕ) (c : UInt16) : Prop :=
  (errorsGiven opts = true → WrittenErr opts e) ∧ (cmdsGiven opts = true → WrittenCmd opts c)

def cmdInRange (token : CString) : Bool := 0 ≤ atoi token ∧ atoi token < maxNfsCommands

def errKnown (token : CString) : Bool := toInt (strtol 10 token).value ∈ nfs4Errors

/-- `atoi` reads the command from a token before the cap on commands in range. -/
def ReadCmd (opts : List Opt) (c : UInt16) : Prop :=
  ∃ before token after, cmdTokens opts = before ++ token :: after ∧
    before.countP cmdInRange < maxNfsCommands ∧ cmdInRange token = true ∧ atoi token = c.toNat

/-- `strtol` narrowed to an `int` reads the error from a token before the cap on
known errors. -/
def ReadErr (opts : List Opt) (e : ℕ) : Prop :=
  ∃ before token after, errTokens opts = before ++ token :: after ∧
    before.countP errKnown < maxErrorCodes ∧ errKnown token = true ∧
    toInt (strtol 10 token).value = e

/-- The given options read the error and the command. -/
def Read (opts : List Opt) (e : ℕ) (c : UInt16) : Prop :=
  (errorsGiven opts = true → ReadErr opts e) ∧ (cmdsGiven opts = true → ReadCmd opts c)

/-- The given options read the error and the command, but do not both write them. -/
def Misread (opts : List Opt) (e : ℕ) (c : UInt16) : Prop :=
  Read opts e c ∧
    ((errorsGiven opts = true ∧ ¬ WrittenErr opts e) ∨ (cmdsGiven opts = true ∧ ¬ WrittenCmd opts c))

/-- The given options write the error and the command, but one of them only where
it is not read. -/
def CutOff (opts : List Opt) (e : ℕ) (c : UInt16) : Prop :=
  Wanted opts e c ∧
    ((errorsGiven opts = true ∧ ¬ ReadErr opts e) ∨ (cmdsGiven opts = true ∧ ¬ ReadCmd opts c))

theorem misread_iff {opts : List Opt} {e : ℕ} {c : UInt16} :
    Misread opts e c ↔ Read opts e c ∧ ¬ Wanted opts e c := by
  rw [Misread, Wanted, not_and_or, Classical.not_imp, Classical.not_imp]

theorem cutOff_iff {opts : List Opt} {e : ℕ} {c : UInt16} :
    CutOff opts e c ↔ Wanted opts e c ∧ ¬ Read opts e c := by
  rw [CutOff, Read, not_and_or, Classical.not_imp, Classical.not_imp]

theorem readCmd_isSome (token : CString) : (readCmd token).isSome = cmdInRange token := by
  unfold readCmd cmdInRange
  split <;> simp_all

theorem readErr_isSome (token : CString) : (readErr token).isSome = errKnown token := by
  have hknown := @validateErrCode_iff (toInt (strtol 10 token).value)
  simp only [readErr, errKnown]
  split <;> simp_all

theorem mem_readCmd {opts : List Opt} {c : UInt16} :
    c ∈ readings readCmd maxNfsCommands (cmdTokens opts) ↔ ReadCmd opts c := by
  have hread : ∀ token, readCmd token = some c ↔ cmdInRange token = true ∧ atoi token = c.toNat := by
    intro token
    simp only [readCmd, cmdInRange, decide_eq_true_eq, Option.ite_none_right_eq_some,
      Option.some.injEq]
    refine and_congr_right fun hrange => ?_
    have hmax : (maxNfsCommands : ℤ) = 70 := rfl
    have hsize : UInt16.size = 65536 := rfl
    rw [← UInt16.toNat_inj, UInt16.toNat_ofNat_of_lt' (by omega)]
    omega
  simp only [mem_readings, readCmd_isSome, hread, ReadCmd]

theorem mem_readErr {opts : List Opt} {e : ℕ} (hlt : e < 2 ^ 31) :
    Int32.ofNat e ∈ readings readErr maxErrorCodes (errTokens opts) ↔ ReadErr opts e := by
  have hread : ∀ token, readErr token = some (Int32.ofNat e) ↔
      errKnown token = true ∧ toInt (strtol 10 token).value = e := by
    intro token
    simp only [readErr, errKnown, validateErrCode_iff, decide_eq_true_eq,
      Option.ite_none_right_eq_some, Option.some.injEq]
    refine and_congr_right fun _ => ?_
    have hsize : Int32.size = 4294967296 := rfl
    have he : Int.bmod (e : ℤ) Int32.size = e := Int.bmod_eq_of_le (by omega) (by omega)
    rw [← Int32.ofInt_eq_ofNat, ← Int32.toInt_inj, Int32.toInt_ofInt, Int32.toInt_ofInt, he, toInt,
      hsize, Int.bmod_bmod]
  simp only [mem_readings, readErr_isSome, hread, ReadErr]

theorem read_iff_written {inTable : CString → Bool} {tokens : List CString} {cap : ℕ} {n : ℤ}
    (hdecimal : ∀ token ∈ tokens, decimal token = some (atoi token)) (hlength : tokens.length ≤ cap) :
    (∃ before token after, tokens = before ++ token :: after ∧ before.countP inTable < cap ∧
      inTable token = true ∧ atoi token = n) ↔
    ∃ token ∈ tokens, inTable token = true ∧ decimal token = some n := by
  constructor
  · rintro ⟨before, token, after, rfl, -, hin, rfl⟩
    have htoken : token ∈ before ++ token :: after := by simp
    exact ⟨token, htoken, hin, hdecimal token htoken⟩
  · rintro ⟨token, htoken, hin, hwritten⟩
    obtain ⟨before, after, rfl⟩ := List.append_of_mem htoken
    have hcount := @List.countP_le_length _ inTable before
    rw [List.length_append, List.length_cons] at hlength
    rw [hdecimal token htoken, Option.some.injEq] at hwritten
    exact ⟨before, token, after, rfl, by omega, hin, hwritten⟩

/-- Lists of decimal numbers that fit an `int`, as long as the caps at most, are
neither misread nor cut off. -/
theorem read_iff_wanted {opts : List Opt} {e : ℕ} {c : UInt16}
    (hdecimal : ∀ token ∈ cmdTokens opts ++ errTokens opts,
      ∃ v, decimal token = some v ∧ -2147483648 ≤ v ∧ v < 2147483648)
    (hcmds : (cmdTokens opts).length ≤ maxNfsCommands)
    (herrors : (errTokens opts).length ≤ maxErrorCodes) :
    Read opts e c ↔ Wanted opts e c := by
  have hread : ∀ token ∈ cmdTokens opts ++ errTokens opts, decimal token = some (atoi token) :=
    fun token htoken => decimal_eq_atoi (hdecimal token htoken)
  have hcmd : ReadCmd opts c ↔ WrittenCmd opts c := by
    rw [ReadCmd, read_iff_written (fun t ht => hread t (List.mem_append_left _ ht)) hcmds, WrittenCmd]
    constructor
    · rintro ⟨token, htoken, hin, hwritten⟩
      have hvalue := hread token (List.mem_append_left _ htoken)
      rw [hwritten, Option.some.injEq] at hvalue
      simp only [cmdInRange, ← hvalue, decide_eq_true_eq] at hin
      exact ⟨by omega, token, htoken, hwritten⟩
    · rintro ⟨hmax, token, htoken, hwritten⟩
      have hvalue := hread token (List.mem_append_left _ htoken)
      rw [hwritten, Option.some.injEq] at hvalue
      refine ⟨token, htoken, ?_, hwritten⟩
      simp only [cmdInRange, ← hvalue, decide_eq_true_eq]
      omega
  have herr : ReadErr opts e ↔ WrittenErr opts e := by
    have htoInt : ∀ token, toInt (strtol 10 token).value = atoi token := fun _ => rfl
    simp only [ReadErr, htoInt]
    rw [read_iff_written (fun t ht => hread t (List.mem_append_right _ ht)) herrors, WrittenErr]
    have hknown : ∀ token ∈ errTokens opts, decimal token = some (e : ℤ) →
        (errKnown token = true ↔ (e : ℤ) ∈ nfs4Errors) := by
      intro token htoken hwritten
      have hvalue := hread token (List.mem_append_right _ htoken)
      rw [hwritten, Option.some.injEq] at hvalue
      simp only [errKnown, htoInt, ← hvalue, decide_eq_true_eq]
    constructor
    · rintro ⟨token, htoken, hin, hwritten⟩
      exact ⟨(hknown token htoken hwritten).mp hin, token, htoken, hwritten⟩
    · rintro ⟨hmem, token, htoken, hwritten⟩
      exact ⟨token, htoken, (hknown token htoken hwritten).mpr hmem, hwritten⟩
  rw [Read, Wanted, hcmd, herr]

inductive Failed (e : ℕ) (c : UInt16) : Response → Prop
  | xdrStatus {context : DiagContext} {xid op : UInt32} : op.toUInt16 = c →
      Failed e c (.nfs4XdrStatus context xid op (UInt64.ofNat e))
  | exitTask {context : DiagContext} {task : RpcTask} : task.tkStatus = -Int32.ofNat e →
      task.pStatidx.toUInt16 = c → Failed e c (.rpcExitTask context task)

/-- An event goes out that carries the status and the command. -/
def Emits (s : Option Submission) (e : ℕ) (c : UInt16) : Prop :=
  ∃ event, s.map Submission.event = some event ∧ event.metric = .retval (Int32.ofNat e) ∧
    event.command = c

theorem toInt_neg_ofNat {e : ℕ} (hlt : e < 2 ^ 31) : (-Int32.ofNat e).toInt = -(e : ℤ) := by
  rw [Int32.neg_ofNat, Int32.toInt_ofInt_of_le (by omega) (by omega)]

theorem retval_of_failed {task : RpcTask} {e : ℕ} (hpos : 1 ≤ e) (hlt : e < 2 ^ 31)
    (h : task.tkStatus = -Int32.ofNat e) : task.tkStatus ≠ 0 ∧ task.retval = Int32.ofNat e := by
  have hlow : -Int32.ofNat e < 0 := by
    rw [Int32.lt_iff_toInt_lt, toInt_neg_ofNat hlt, Int32.toInt_zero]
    omega
  constructor
  · rw [h, Ne, ← Int32.toInt_inj, toInt_neg_ofNat hlt, Int32.toInt_zero]
    omega
  · rw [RpcTask.retval, h, if_pos hlow, Int32.neg_neg]

/-- Both hooks select by the same error and command, and would report them. -/
theorem Failed.selected {f : Filters Int32} {smb : Filters UInt32} {e : ℕ} {c : UInt16}
    {r : Response} (h : Failed e c r) (hpos : 1 ≤ e) (hlt : e < 2 ^ 31) :
    ∃ event : Event, event.metric = .retval (Int32.ofNat e) ∧ event.command = c ∧
      ErrorTracers.selected ⟨f, smb⟩ r =
        if f.pass (Int32.ofNat e) c then some event else none := by
  cases h with
  | @xdrStatus context xid op hop =>
      have hnarrow : (UInt64.ofNat e).toUInt32.toInt32 = Int32.ofNat e := by
        rw [UInt64.toUInt32_ofNat']
        rfl
      have hne : UInt64.ofNat e ≠ 0 := by
        have hsize : UInt64.size = 18446744073709551616 := rfl
        rw [Ne, ← UInt64.toNat_inj, UInt64.toNat_ofNat_of_lt' (by omega)]
        exact Nat.ne_of_gt hpos
      refine ⟨nfsEvent context c xid (Int32.ofNat e), rfl, rfl, ?_⟩
      simp only [ErrorTracers.selected, hnarrow, hop, hne, ne_eq, not_false_eq_true, true_and]
  | @exitTask context task hstatus hcommand =>
      obtain ⟨hne, hretval⟩ := retval_of_failed hpos hlt hstatus
      refine ⟨nfsEvent context c (ntohl task.rqXid) (Int32.ofNat e), rfl, rfl, ?_⟩
      simp only [ErrorTracers.selected, hretval, hcommand, hne, ne_eq, not_false_eq_true, true_and]

theorem emits_iff {f : Filters Int32} {smb : Filters UInt32} {w : Int32} {e : ℕ} {c : UInt16}
    {r : Response} {ring : Fill} (h : Failed e c r) (hpos : 1 ≤ e) (hlt : e < 2 ^ 31)
    (hroom : ring.room = true) : Emits (handle ⟨f, smb⟩ w (r, ring)) e c ↔
      w = 0 ∧ f.pass (Int32.ofNat e) c = true := by
  obtain ⟨event, hmetric, hcommand, hselected⟩ := @Failed.selected f smb e c r h hpos hlt
  rw [Emits, handle_event hroom, hselected]
  by_cases hw : w = 0 <;> cases f.pass (Int32.ofNat e) c <;> simp [hw, hmetric, hcommand]

/-- In a loaded program, with room, each of the two hooks emits a failed operation
exactly when the options ask for it, if and only if the wakeup size is zero or the
operation is not asked for, and it is neither misread nor cut off. -/
theorem hooks_follow_options_iff {opts : List Opt} {cmdUpdates : UInt16 → Bool}
    {errUpdates : Int32 → Bool} {f : Filters Int32} (hload : load opts cmdUpdates errUpdates = some f)
    {smb : Filters UInt32} {w : Int32} {e : ℕ} (hpos : 1 ≤ e) (hlt : e < 2 ^ 31) {c : UInt16} :
    (∀ r, Failed e c r → ∀ ring : Fill, ring.room = true →
      (Emits (handle ⟨f, smb⟩ w (r, ring)) e c ↔ Wanted opts e c)) ↔
    if w = 0 then ¬ Misread opts e c ∧ ¬ CutOff opts e c else ¬ Wanted opts e c := by
  have hpass : f.pass (Int32.ofNat e) c = true ↔ Read opts e c := by
    rw [load_pass hload, mem_readErr hlt, mem_readCmd, Read]
  have hhooks : (∀ r, Failed e c r → ∀ ring : Fill, ring.room = true →
      (Emits (handle ⟨f, smb⟩ w (r, ring)) e c ↔ Wanted opts e c)) ↔
      ((w = 0 ∧ f.pass (Int32.ofNat e) c = true) ↔ Wanted opts e c) := by
    constructor
    · intro h
      have hsome : Failed e c (.nfs4XdrStatus ⟨0, Buffer.zero 16, 0⟩ 0 c.toUInt32 (UInt64.ofNat e)) :=
        .xdrStatus (UInt16.toUInt16_toUInt32 c)
      rw [← h _ hsome ⟨true, 0, 0⟩ rfl, emits_iff hsome hpos hlt rfl]
    · intro h r hr ring hroom
      rw [emits_iff hr hpos hlt hroom, h]
  rw [hhooks, hpass]
  split
  next hw =>
      rw [misread_iff, cutOff_iff, and_iff_right hw, not_and_not_right, not_and_not_right]
      exact iff_iff_implies_and_implies
  next hw => simp [hw]

/-- Under `-c 4,5 -e 13`, an operation of command 4 that failed with 13. -/
theorem hooks_follow_options_iff_accessDenied :
    (∀ r, Failed 13 4 r → ∀ ring : Fill, ring.room = true →
      (Emits (handle ⟨⟨1, 1, Finmap.singleton 13 1, Finmap.insert 5 1 (Finmap.singleton 4 1)⟩,
        oneCommand.smb⟩ 0 (r, ring)) 13 4 ↔
        Wanted [.cmds true (cstr "4,5"), .errors true (cstr "13")] 13 4)) ↔
    ¬ Misread [.cmds true (cstr "4,5"), .errors true (cstr "13")] 13 4 ∧
      ¬ CutOff [.cmds true (cstr "4,5"), .errors true (cstr "13")] 13 4 := by
  have hload : (load [.cmds true (cstr "4,5"), .errors true (cstr "13")] (fun _ => true)
      fun _ => true) = some ⟨1, 1, Finmap.singleton 13 1,
        Finmap.insert 5 1 (Finmap.singleton 4 1)⟩ := by decide +kernel
  exact hooks_follow_options_iff hload (by decide) (by decide)

/-- `-e 4294967297` is accepted and lets the error 1 pass. -/
theorem hooks_follow_options_fails_wideError :
    ¬ ∀ (opts : List Opt) (cmdUpdates : UInt16 → Bool) (errUpdates : Int32 → Bool)
      (f : Filters Int32), load opts cmdUpdates errUpdates = some f →
      ∀ (smb : Filters UInt32) (e : ℕ) (c : UInt16), 1 ≤ e → e < 2 ^ 31 →
      ∀ r, Failed e c r → ∀ ring : Fill, ring.room = true →
        (Emits (handle ⟨f, smb⟩ 0 (r, ring)) e c ↔ Wanted opts e c) := by
  intro h
  have hload : load [.errors true (cstr "4294967297")] (fun _ => true) (fun _ => true) =
      some ⟨1, 0, Finmap.singleton 1 1, ∅⟩ := by decide +kernel
  have hfailed : Failed 1 4 (.nfs4XdrStatus ⟨7, Buffer.zero 16, 1000⟩ 1 4 1) := .xdrStatus rfl
  have hemits := h _ _ _ _ hload oneCommand.smb 1 4 (by decide) (by decide) _ hfailed ⟨true, 0, 0⟩ rfl
  rw [emits_iff hfailed (by decide) (by decide) rfl] at hemits
  obtain ⟨hwanted, -⟩ := hemits.mp (by decide +kernel)
  obtain ⟨-, token, htoken, hwritten⟩ := hwanted rfl
  have hnone : ∀ token ∈ errTokens [.errors true (cstr "4294967297")],
      decimal token ≠ some 1 := by decide +kernel
  exact hnone token htoken hwritten

end MonitoringTools.NfsiosnoopOptions
