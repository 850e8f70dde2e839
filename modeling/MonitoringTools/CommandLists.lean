import MonitoringTools.BpfHelpers
import MonitoringTools.CNumbers

/-!
# The command lists of the slow tracers

smbslower and nfsslower share the code that parses the list of `--include-cmds`
or `--exclude-cmds` and turns it into a denylist. The list is read with `atoi`
up to a cap, and the denylist covers the codes of the table only, so what
passes can differ from what the list names. The table's size is a parameter.
-/
namespace MonitoringTools.CommandLists
open BpfHelpers CStrings CNumbers

inductive CmdOption where
  | includeCmds | excludeCmds
  deriving DecidableEq, Repr

structure Options where
  includeMode : Bool
  excludeMode : Bool
  cmdFilter : ℕ → Bool

def Options.initial : Options := ⟨false, false, fun _ => false⟩

section Parsing
variable (maxCommands : ℕ)

/-- The loop of `parse_cmd_list`. -/
def parseTokens (maxCmds : ℕ) : List CString → ℕ → (ℕ → Bool) → ℕ × (ℕ → Bool)
  | [], count, cmdFilter => (count, cmdFilter)
  | token :: tokens, count, cmdFilter =>
      if count < maxCmds then
        let cmd := atoi token
        if 0 ≤ cmd ∧ cmd < maxCommands then
          parseTokens maxCmds tokens (count + 1) (Function.update cmdFilter cmd.toNat true)
        else parseTokens maxCmds tokens count cmdFilter
      else (count, cmdFilter)

/-- `parse_cmd_list`. The copy of its argument may fail. -/
def parseCmdList (memory : Bool) (arg : CString) (maxCmds : ℕ) (cmdFilter : ℕ → Bool) :
    ℤ × (ℕ → Bool) :=
  if memory then
    let (count, cmdFilter) := parseTokens maxCommands maxCmds (strtok arg (cstr ",")) 0 cmdFilter
    (count, cmdFilter)
  else (-1, cmdFilter)

/-- The two options in `parse_arg`; an error is the warning before the usage
message, with which the process ends. -/
def parseArg (option : CmdOption) (memory : Bool) (arg : CString) (o : Options) :
    Except CString Options :=
  match option with
  | .includeCmds =>
      if o.excludeMode then .error (cstr "Cannot use --include-cmds with --exclude-cmds\n")
      else
        let (err, cmdFilter) := parseCmdList maxCommands memory arg maxCommands o.cmdFilter
        if err < 0 then .error (cstr "Failed to parse include commands: " ++ arg ++ cstr "\n")
        else if err = 0 then
          .error (cstr "No valid commands specified in include list: " ++ arg ++ cstr "\n")
        else .ok ⟨true, o.excludeMode, cmdFilter⟩
  | .excludeCmds =>
      if o.includeMode then .error (cstr "Cannot use --exclude-cmds with --include-cmds\n")
      else
        let (err, cmdFilter) := parseCmdList maxCommands memory arg maxCommands o.cmdFilter
        if err < 0 then .error (cstr "Failed to parse exclude commands: " ++ arg ++ cstr "\n")
        else if err = 0 then
          .error (cstr "No valid commands specified in exclude list: " ++ arg ++ cstr "\n")
        else .ok ⟨o.includeMode, true, cmdFilter⟩

def Options.denies (o : Options) (cmd : ℕ) : Bool :=
  if o.excludeMode && o.cmdFilter cmd then true
  else if o.includeMode && !o.cmdFilter cmd then true
  else false

/-- One round of the loop of `update_denylist_map`. The update of the map may fail. -/
def denyCode (updates : UInt16 → Bool) (o : Options) (denylist : HashMap UInt16 UInt8)
    (cmd : UInt16) : Option (HashMap UInt16 UInt8) :=
  if o.denies cmd.toNat then
    if updates cmd then some (denylist.insert cmd 1) else none
  else some denylist

def updateDenylistMap (updates : UInt16 → Bool) (o : Options) : Option (HashMap UInt16 UInt8) :=
  ((List.range maxCommands).map UInt16.ofNat).foldlM (denyCode updates o) ∅

/-- From an accepted option to the denylist the programs run with. -/
def load (option : CmdOption) (memory : Bool) (arg : CString) (updates : UInt16 → Bool) :
    Option (HashMap UInt16 UInt8) :=
  match parseArg maxCommands option memory arg .initial with
  | .error _ => none
  | .ok o => updateDenylistMap maxCommands updates o

/-- Some token writes the code in decimal. -/
def Written (arg : CString) (c : ℕ) : Prop :=
  ∃ token ∈ strtok arg (cstr ","), decimal token = some (c : ℤ)

instance (arg : CString) (c : ℕ) : Decidable (Written arg c) :=
  inferInstanceAs (Decidable (∃ token ∈ _, _))

/-- The codes of the table that a list names. -/
def Named (arg : CString) (c : ℕ) : Prop := c < maxCommands ∧ Written arg c

instance (arg : CString) (c : ℕ) : Decidable (Named maxCommands arg c) :=
  inferInstanceAs (Decidable (_ ∧ _))

/-- What an option asks for: the named commands, or the others. -/
def Wanted (option : CmdOption) (arg : CString) (c : ℕ) : Prop :=
  match option with
  | .includeCmds => Named maxCommands arg c
  | .excludeCmds => ¬ Named maxCommands arg c

def inRange (token : CString) : Bool := 0 ≤ atoi token ∧ atoi token < maxCommands

/-- A token that stands before the cap on codes in range. -/
def BeforeCap (tokens : List CString) (token : CString) : Prop :=
  ∃ before after, tokens = before ++ token :: after ∧
    before.countP (inRange maxCommands) < maxCommands

/-- A token before the cap reads as the code. -/
def ReadAs (arg : CString) (c : ℕ) : Prop :=
  ∃ token, BeforeCap maxCommands (strtok arg (cstr ",")) token ∧ atoi token = c

/-- No token writes the code, but one before the cap reads as it. -/
def Misread (arg : CString) (c : ℕ) : Prop := ¬ Written arg c ∧ ReadAs maxCommands arg c

/-- A token writes the code, but all that read as it stand after the cap. -/
def CutOff (arg : CString) (c : ℕ) : Prop := Written arg c ∧ ¬ ReadAs maxCommands arg c

/-- The code is in the table, where that matters, and read as it is written. -/
def ReadRight (option : CmdOption) (arg : CString) (c : ℕ) : Prop :=
  if c < maxCommands then ¬ Misread maxCommands arg c ∧ ¬ CutOff maxCommands arg c
  else option = .excludeCmds

end Parsing

variable {maxCommands : ℕ}

theorem exists_split_cons {token : CString} {tokens : List CString}
    {P : List CString → CString → Prop} :
    (∃ before t after, token :: tokens = before ++ t :: after ∧ P before t) ↔
      P [] token ∨ ∃ before t after, tokens = before ++ t :: after ∧ P (token :: before) t := by
  constructor
  · rintro ⟨before, t, after, hsplit, hP⟩
    cases before with
    | nil =>
        obtain ⟨rfl, rfl⟩ := List.cons.inj hsplit
        exact .inl hP
    | cons first before =>
        obtain ⟨rfl, hrest⟩ := List.cons.inj hsplit
        exact .inr ⟨before, t, after, hrest, hP⟩
  · rintro (hP | ⟨before, t, after, rfl, hP⟩)
    · exact ⟨[], token, tokens, rfl, hP⟩
    · exact ⟨token :: before, t, after, rfl, hP⟩

theorem parseTokens_filter {maxCmds : ℕ} (tokens : List CString) (count : ℕ)
    (cmdFilter : ℕ → Bool) {c : ℕ} (hc : c < maxCommands) :
    (parseTokens maxCommands maxCmds tokens count cmdFilter).2 c = true ↔
      cmdFilter c = true ∨ ∃ before token after, tokens = before ++ token :: after ∧
        count + before.countP (inRange maxCommands) < maxCmds ∧ atoi token = c := by
  induction tokens generalizing count cmdFilter with
  | nil => simp [parseTokens]
  | cons token tokens ih =>
      rw [exists_split_cons]
      simp only [parseTokens, List.countP_cons, List.countP_nil, Nat.add_zero]
      by_cases hcount : count < maxCmds
      · by_cases hrange : 0 ≤ atoi token ∧ atoi token < maxCommands
        · have hin : inRange maxCommands token = true := decide_eq_true hrange
          have hmark : Function.update cmdFilter (atoi token).toNat true c = true ↔
              atoi token = c ∨ cmdFilter c = true := by
            rw [Function.update_apply]
            split <;> simp <;> omega
          rw [if_pos hcount, if_pos hrange, ih, hmark]
          simp only [hin, if_true, hcount, true_and, Nat.add_right_comm count 1, ← Nat.add_assoc]
          rw [or_assoc, or_left_comm]
        · have hin : inRange maxCommands token = false := decide_eq_false hrange
          have hother : atoi token ≠ c := fun heq => hrange (by omega)
          rw [if_pos hcount, if_neg hrange, ih]
          simp only [hin, hother, Bool.false_eq_true, if_false, Nat.add_zero, and_false, false_or]
      · have hover : ∀ n, ¬ count + n < maxCmds := fun n => by omega
        simp [hcount, hover]

/-- A code in range is in the table exactly when some token before the cap reads as it. -/
theorem parseCmdList_filter {arg : CString} {c : ℕ} (hc : c < maxCommands) :
    (parseCmdList maxCommands true arg maxCommands fun _ => false).2 c = true ↔
      ReadAs maxCommands arg c := by
  refine (parseTokens_filter _ 0 _ hc).trans ?_
  simp only [Bool.false_eq_true, false_or, Nat.zero_add, ReadAs, BeforeCap]
  constructor
  · rintro ⟨before, token, after, hsplit, hcap, hread⟩
    exact ⟨token, ⟨before, after, hsplit, hcap⟩, hread⟩
  · rintro ⟨token, ⟨before, after, hsplit, hcap⟩, hread⟩
    exact ⟨before, token, after, hsplit, hcap, hread⟩

theorem parseArg_ok {option : CmdOption} {memory : Bool} {arg : CString} {o : Options}
    (h : parseArg maxCommands option memory arg .initial = .ok o) :
    o = ⟨option = .includeCmds, option = .excludeCmds,
      (parseCmdList maxCommands true arg maxCommands fun _ => false).2⟩ := by
  cases memory with
  | false => cases option <;> simp [parseArg, parseCmdList, Options.initial] at h
  | true =>
      generalize hparsed : parseCmdList maxCommands true arg maxCommands (fun _ => false) = parsed
      obtain ⟨err, cmdFilter⟩ := parsed
      cases option <;> simp only [parseArg, Options.initial, hparsed, Bool.false_eq_true,
        if_false] at h
      · split_ifs at h
        cases h
        rfl
      · split_ifs at h
        cases h
        rfl

theorem denyCodes_lookup {updates : UInt16 → Bool} {o : Options}
    {acc denylist : HashMap UInt16 UInt8} {codes : List UInt16}
    (h : codes.foldlM (denyCode updates o) acc = some denylist) (c : UInt16) :
    (denylist.lookup c).isSome = true ↔
      (acc.lookup c).isSome = true ∨ (c ∈ codes ∧ o.denies c.toNat = true) := by
  induction codes generalizing acc with
  | nil =>
      cases h
      simp
  | cons cmd codes ih =>
      rw [List.foldlM_cons, denyCode] at h
      split_ifs at h with hdenies hupdate
      · rw [ih h, HashMap.lookup_insert_eq, List.mem_cons]
        by_cases hc : c = cmd
        · simp [hc, hdenies]
        · simp [hc]
      · cases h
      · rw [ih h, List.mem_cons]
        by_cases hc : c = cmd
        · simp [hc, hdenies]
        · simp [hc]

theorem mem_codes_iff (hmax : maxCommands ≤ 65536) (c : UInt16) :
    c ∈ (List.range maxCommands).map UInt16.ofNat ↔ c.toNat < maxCommands := by
  rw [List.mem_map]
  constructor
  · rintro ⟨n, hn, rfl⟩
    rw [List.mem_range] at hn
    have hsize : UInt16.size = 65536 := rfl
    rwa [UInt16.toNat_ofNat_of_lt' (by omega)]
  · intro hc
    exact ⟨c.toNat, List.mem_range.mpr hc, UInt16.ofNat_toNat⟩

theorem updateDenylistMap_lookup {updates : UInt16 → Bool} {o : Options}
    {denylist : HashMap UInt16 UInt8} (hmax : maxCommands ≤ 65536)
    (h : updateDenylistMap maxCommands updates o = some denylist) (c : UInt16) :
    (denylist.lookup c).isSome = true ↔ c.toNat < maxCommands ∧ o.denies c.toNat = true := by
  rw [denyCodes_lookup h, mem_codes_iff hmax]
  simp

/-- The denylist of a loaded tracer lets a code pass when it is outside the
table, or read for an include list, or not read for an exclude list. -/
theorem load_lookup {option : CmdOption} {memory : Bool} {arg : CString}
    {updates : UInt16 → Bool} {denylist : HashMap UInt16 UInt8} (hmax : maxCommands ≤ 65536)
    (h : load maxCommands option memory arg updates = some denylist) (c : UInt16) :
    denylist.lookup c = none ↔
      (c.toNat < maxCommands → (option = .includeCmds ↔ ReadAs maxCommands arg c.toNat)) := by
  unfold load at h
  split at h
  next => cases h
  next o ho =>
      have hlookup := updateDenylistMap_lookup hmax h c
      rw [← Option.not_isSome_iff_eq_none, hlookup, parseArg_ok ho]
      by_cases hc : c.toNat < maxCommands
      · rw [← parseCmdList_filter hc]
        cases option <;> simp [Options.denies, hc]
      · simp [hc]

theorem readRight_iff {option : CmdOption} {arg : CString} {c : ℕ} :
    ((c < maxCommands → (option = .includeCmds ↔ ReadAs maxCommands arg c)) ↔
      Wanted maxCommands option arg c) ↔ ReadRight maxCommands option arg c := by
  unfold ReadRight
  split
  next hc =>
      cases option <;> simp only [Wanted, Named, Misread, CutOff, hc, forall_true_left, true_and,
        true_iff, reduceCtorEq, false_iff] <;> tauto
  next hc => cases option <;> simp [Wanted, Named, hc]

/-- A list of decimal integers within the cap is read right below the table's end. -/
theorem readRight_of_decimal {option : CmdOption} {arg : CString} {c : ℕ} (hc : c < maxCommands)
    (hdecimal : ∀ token ∈ strtok arg (cstr ","),
      ∃ v, decimal token = some v ∧ -2147483648 ≤ v ∧ v < 2147483648)
    (hlength : (strtok arg (cstr ",")).length ≤ maxCommands) :
    ReadRight maxCommands option arg c := by
  have hread : ∀ token ∈ strtok arg (cstr ","), decimal token = some (atoi token) :=
    fun token htoken => decimal_eq_atoi (hdecimal token htoken)
  rw [ReadRight, if_pos hc]
  constructor
  · rintro ⟨hunnamed, token, ⟨before, after, hsplit, -⟩, heq⟩
    have htoken : token ∈ strtok arg (cstr ",") := by simp [hsplit]
    exact hunnamed ⟨token, htoken, heq ▸ hread token htoken⟩
  · rintro ⟨⟨token, htoken, hnamed⟩, hcut⟩
    obtain ⟨before, after, hsplit⟩ := List.append_of_mem htoken
    have hcap : before.countP (inRange maxCommands) < maxCommands := by
      rw [hsplit, List.length_append, List.length_cons] at hlength
      have hcount := @List.countP_le_length _ (inRange maxCommands) before
      omega
    have hvalue : atoi token = c := Option.some.inj (by rw [← hread token htoken, hnamed])
    exact hcut ⟨token, ⟨before, after, hsplit, hcap⟩, hvalue⟩

end MonitoringTools.CommandLists
