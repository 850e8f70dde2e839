import Mathlib.Data.Int.Notation
import Mathlib.Tactic.SplitIfs
import MonitoringTools.CStrings

/-!
# Which programs smbslower loads

The selection in `main`: the three tracepoints, or one probe on the allocation
and one on the release of a request. What `main` asks the system about is the
environment. A release program is right for its function when it is attached
to it and reads the arguments that function has.
-/
namespace MonitoringTools.SmbslowerSelection
open CStrings

inductive Program where
  | traceSmb3CmdEnter | traceSmb3CmdDone | traceSmb3CmdErr
  | midAllocFexit | midAllocKretprobe | midAllocRhel810Kretprobe | midAllocRhel810553134Kretprobe
  | midReleaseKrefFentry | midReleaseKrefKprobe | midReleaseLegacyFentry | midReleaseLegacyKprobe
  | midReleaseRhel810Kprobe | midReleaseRhel810553134Kprobe
  | midReleaseSingleDirectFentry | midReleaseSingleDirectKprobe
  | midReleaseDirectFentry | midReleaseDirectKprobe
  deriving DecidableEq, Repr

def sectionName : Program → CString
  | .traceSmb3CmdEnter => cstr "tracepoint/cifs/smb3_cmd_enter"
  | .traceSmb3CmdDone => cstr "tracepoint/cifs/smb3_cmd_done"
  | .traceSmb3CmdErr => cstr "tracepoint/cifs/smb3_cmd_err"
  | .midAllocFexit => cstr "fexit/smb2_mid_entry_alloc"
  | .midAllocKretprobe => cstr "kretprobe/smb2_mid_entry_alloc"
  | .midAllocRhel810Kretprobe => cstr "kretprobe/smb2_mid_entry_alloc"
  | .midAllocRhel810553134Kretprobe => cstr "kretprobe/smb2_mid_entry_alloc"
  | .midReleaseKrefFentry => cstr "fentry/__release_mid"
  | .midReleaseKrefKprobe => cstr "kprobe/__release_mid"
  | .midReleaseLegacyFentry => cstr "fentry/_cifs_mid_q_entry_release"
  | .midReleaseLegacyKprobe => cstr "kprobe/_cifs_mid_q_entry_release"
  | .midReleaseRhel810Kprobe => cstr "kprobe/_cifs_mid_q_entry_release"
  | .midReleaseRhel810553134Kprobe => cstr "kprobe/__release_mid"
  | .midReleaseSingleDirectFentry => cstr "fentry/release_mid"
  | .midReleaseSingleDirectKprobe => cstr "kprobe/release_mid"
  | .midReleaseDirectFentry => cstr "fentry/__release_mid"
  | .midReleaseDirectKprobe => cstr "kprobe/__release_mid"

/-- The function a probe is attached to. -/
def target (p : Program) : Option CString := afterChar '/' (sectionName p)

def tracepointPrograms : List Program := [.traceSmb3CmdEnter, .traceSmb3CmdDone, .traceSmb3CmdErr]

/-- The arguments of a release function, as the programs declare them. -/
inductive Arguments where
  | serverMid | mid | kref
  deriving DecidableEq, Repr

def arguments : Program → Option Arguments
  | .midReleaseKrefFentry | .midReleaseKrefKprobe | .midReleaseLegacyFentry
  | .midReleaseLegacyKprobe | .midReleaseRhel810Kprobe | .midReleaseRhel810553134Kprobe =>
    some .kref
  | .midReleaseSingleDirectFentry | .midReleaseSingleDirectKprobe => some .mid
  | .midReleaseDirectFentry | .midReleaseDirectKprobe => some .serverMid
  | _ => none

inductive FixedOffsets where
  | request (mid command : ℕ)
  | container (refcount : ℕ)
  deriving DecidableEq, Repr

def fixedOffsets : Program → Option FixedOffsets
  | .midAllocRhel810Kretprobe => some (.request 32 124)
  | .midAllocRhel810553134Kretprobe => some (.request 24 40)
  | .midReleaseRhel810Kprobe | .midReleaseRhel810553134Kprobe => some (.container 16)
  | _ => none

structure Environment where
  skipTracepoints : Bool
  tracepointExists : CString → Bool
  cifsBtfReadable : Bool
  /-- `uts.release`, where `uname` succeeds. -/
  release : Option CString
  /-- The contents of `/sys/module/cifs/srcversion`, where it can be opened. -/
  srcversion : Option CString
  fentryCanAttach : CString → Bool
  getFuncParamCount : CString → ℤ

/-- `file_equals`: the first line of a file, up to the size of its buffer. -/
def fileEquals (file : Option CString) (expected : CString) : Bool :=
  match file with
  | none => false
  | some contents => !contents.isEmpty &&
      (contents.take 127).takeWhile (fun c => c ≠ '\r' && c ≠ '\n' && c ≠ '\x00') == expected

def Environment.runs (env : Environment) (release srcversion : CString) : Bool :=
  env.release == some release && fileEquals env.srcversion srcversion

structure Switches where
  autoload : Program → Bool
  autoattach : Program → Bool

/-- The programs as the library opens them. -/
def Switches.opened : Switches := ⟨fun _ => true, fun _ => true⟩

/-- `bpf_program__set_autoload` and `bpf_program__set_autoattach` on some programs. -/
def Switches.set (s : Switches) (programs : List Program) (on : Bool) : Switches :=
  ⟨fun p => if p ∈ programs then on else s.autoload p,
    fun p => if p ∈ programs then on else s.autoattach p⟩

inductive Failure where
  | noVerifiedLayout (release : CString)
  | unsupportedRelease (releaseFunc : CString) (parameterCount : ℤ)
  deriving DecidableEq, Repr

def Failure.err : Failure → ℤ
  | .noVerifiedLayout _ | .unsupportedRelease _ _ => -95

def ENOENT : ℤ := 2

def Environment.useTracepoints (env : Environment) : Bool :=
  !env.skipTracepoints && env.tracepointExists (cstr "smb3_cmd_enter") &&
    env.tracepointExists (cstr "smb3_cmd_done") && env.tracepointExists (cstr "smb3_cmd_err")

/-- `rhel810_no_module_btf` and `rhel810_553_errata`. -/
def rhel810 (env : Environment) : Except Failure (Bool × Bool) :=
  if env.cifsBtfReadable then .ok (false, false)
  else if env.runs (cstr "4.18.0-553.el8_10.x86_64") (cstr "77983F3F095C933642E503B") then
    .ok (true, false)
  else if env.runs (cstr "4.18.0-553.134.1.el8_10.x86_64") (cstr "E89B9572651524136F71AD9") then
    .ok (true, true)
  else if env.runs (cstr "4.18.0-553.164.1.el8_10.x86_64") (cstr "16DF298BB09E70BCC9C148F") then
    .ok (true, true)
  else .error (.noVerifiedLayout (match env.release with
    | none | some [] => cstr "unknown"
    | some release => release))

def selectAlloc (env : Environment) (noModuleBtf errata : Bool) (s : Switches) : Switches :=
  let s := s.set tracepointPrograms false
  let s := s.set [.midAllocRhel810Kretprobe, .midAllocRhel810553134Kretprobe] false
  if noModuleBtf then
    let s := s.set [.midAllocFexit, .midAllocKretprobe] false
    if errata then s.set [.midAllocRhel810553134Kretprobe] true
    else s.set [.midAllocRhel810Kretprobe] true
  else if env.fentryCanAttach (cstr "smb2_mid_entry_alloc") then s.set [.midAllocKretprobe] false
  else s.set [.midAllocFexit] false

structure ReleaseLookup where
  releaseFunc : CString
  releaseMidParams : ℤ
  legacyRelease : Bool
  singleDirectRelease : Bool
  deriving DecidableEq, Repr

def lookupRelease (env : Environment) (noModuleBtf errata : Bool) : ReleaseLookup :=
  let r : ReleaseLookup :=
    if noModuleBtf then
      ⟨if errata then cstr "__release_mid" else cstr "_cifs_mid_q_entry_release", 1, true, false⟩
    else ⟨cstr "__release_mid", env.getFuncParamCount (cstr "__release_mid"), false, false⟩
  let r : ReleaseLookup :=
    if r.releaseMidParams = -ENOENT then
      let params := env.getFuncParamCount (cstr "release_mid")
      ⟨cstr "release_mid", params, r.legacyRelease, params = 1⟩
    else r
  if r.releaseMidParams = -ENOENT then
    let params := env.getFuncParamCount (cstr "_cifs_mid_q_entry_release")
    ⟨cstr "_cifs_mid_q_entry_release", params, true, r.singleDirectRelease⟩
  else r

def ReleaseLookup.unsupported (r : ReleaseLookup) : Bool :=
  (r.releaseMidParams ≠ 1 && r.releaseMidParams ≠ 2) ||
    (r.legacyRelease && r.releaseMidParams ≠ 1)

def releaseProgram (env : Environment) (noModuleBtf errata : Bool) (r : ReleaseLookup) : Program :=
  let canAttachFentry := env.cifsBtfReadable && env.fentryCanAttach r.releaseFunc
  if noModuleBtf then
    if errata then .midReleaseRhel810553134Kprobe else .midReleaseRhel810Kprobe
  else if r.singleDirectRelease then
    if canAttachFentry then .midReleaseSingleDirectFentry else .midReleaseSingleDirectKprobe
  else if r.legacyRelease then
    if canAttachFentry then .midReleaseLegacyFentry else .midReleaseLegacyKprobe
  else if r.releaseMidParams = 2 then
    if canAttachFentry then .midReleaseDirectFentry else .midReleaseDirectKprobe
  else if canAttachFentry then .midReleaseKrefFentry
  else .midReleaseKrefKprobe

def releasePrograms : List Program :=
  [.midReleaseKrefFentry, .midReleaseKrefKprobe, .midReleaseDirectFentry, .midReleaseDirectKprobe,
    .midReleaseLegacyFentry, .midReleaseLegacyKprobe, .midReleaseRhel810Kprobe,
    .midReleaseRhel810553134Kprobe, .midReleaseSingleDirectFentry, .midReleaseSingleDirectKprobe]

/-- What `main` hands to `smbslower_bpf__load`, with the release function it settled on. -/
structure Selection where
  switches : Switches
  release : Option ReleaseLookup

def select (env : Environment) : Except Failure Selection :=
  if env.useTracepoints then
    let s := Switches.opened.set [.midAllocFexit, .midAllocKretprobe, .midAllocRhel810Kretprobe,
      .midAllocRhel810553134Kretprobe] false
    .ok ⟨s.set releasePrograms false, none⟩
  else do
    let (noModuleBtf, errata) ← rhel810 env
    let s := selectAlloc env noModuleBtf errata .opened
    let s := s.set releasePrograms false
    let r := lookupRelease env noModuleBtf errata
    if r.unsupported then throw (.unsupportedRelease r.releaseFunc r.releaseMidParams)
    return ⟨s.set [releaseProgram env noModuleBtf errata r] true, some r⟩

structure VerifiedLayout where
  release : CString
  srcversion : CString
  mid : ℕ
  command : ℕ
  refcount : ℕ

def verifiedLayouts : List VerifiedLayout :=
  [⟨cstr "4.18.0-553.el8_10.x86_64", cstr "77983F3F095C933642E503B", 32, 124, 16⟩,
    ⟨cstr "4.18.0-553.134.1.el8_10.x86_64", cstr "E89B9572651524136F71AD9", 24, 40, 16⟩,
    ⟨cstr "4.18.0-553.164.1.el8_10.x86_64", cstr "16DF298BB09E70BCC9C148F", 24, 40, 16⟩]

def VerifiedLayout.has (v : VerifiedLayout) : FixedOffsets → Prop
  | .request mid command => mid = v.mid ∧ command = v.command
  | .container refcount => refcount = v.refcount

/-- The arguments of a release function with one or two parameters. -/
def expectedArguments (r : ReleaseLookup) : Arguments :=
  if r.releaseMidParams = 2 then .serverMid
  else if r.releaseFunc = cstr "release_mid" then .mid
  else .kref

/-- The tracepoint programs and nothing else. -/
def TracepointsOnly (s : Selection) : Prop :=
  ∀ p, s.switches.autoload p = true ↔ p ∈ tracepointPrograms

/-- One probe on the allocation and one that is right for the release function. -/
structure FunctionProbes (env : Environment) (s : Selection) (alloc release : Program)
    (r : ReleaseLookup) : Prop where
  loaded : ∀ p, s.switches.autoload p = true ↔ p = alloc ∨ p = release
  on_alloc : target alloc = some (cstr "smb2_mid_entry_alloc")
  looked_up : s.release = some r
  /-- Without BTF there is no parameter count to check. -/
  counted : env.cifsBtfReadable = true → r.releaseMidParams = env.getFuncParamCount r.releaseFunc
  on_release : target release = some r.releaseFunc
  fits : arguments release = some (expectedArguments r)

/-- Fixed offsets are those of the running release and srcversion. -/
def OffsetsVerified (env : Environment) (s : Selection) : Prop :=
  ∀ p o, s.switches.autoload p = true → fixedOffsets p = some o →
    ∃ v ∈ verifiedLayouts, env.runs v.release v.srcversion = true ∧ v.has o

def WellSelected (env : Environment) (s : Selection) : Prop :=
  s.switches.autoattach = s.switches.autoload ∧ OffsetsVerified env s ∧
    (TracepointsOnly s ∨ ∃ alloc release r, FunctionProbes env s alloc release r)

theorem Switches.set_autoattach {s : Switches} (h : s.autoattach = s.autoload)
    (programs : List Program) (on : Bool) :
    (s.set programs on).autoattach = (s.set programs on).autoload := by
  simp only [Switches.set, h]

/-- The allocation program that `selectAlloc` leaves on. -/
def allocProgram (env : Environment) (noModuleBtf errata : Bool) : Program :=
  if noModuleBtf then
    if errata then .midAllocRhel810553134Kretprobe else .midAllocRhel810Kretprobe
  else if env.fentryCanAttach (cstr "smb2_mid_entry_alloc") then .midAllocFexit
  else .midAllocKretprobe

theorem selectAlloc_autoload (env : Environment) (noModuleBtf errata : Bool) (p : Program) :
    (selectAlloc env noModuleBtf errata .opened).autoload p = true ↔
      p = allocProgram env noModuleBtf errata ∨ p ∈ releasePrograms := by
  simp only [selectAlloc, allocProgram]
  split_ifs <;> cases p <;> decide

theorem selectAlloc_autoattach (env : Environment) (noModuleBtf errata : Bool) :
    (selectAlloc env noModuleBtf errata .opened).autoattach =
      (selectAlloc env noModuleBtf errata .opened).autoload := by
  simp only [selectAlloc]
  split_ifs <;> simp only [Switches.set, Switches.opened]

theorem target_allocProgram (env : Environment) (noModuleBtf errata : Bool) :
    target (allocProgram env noModuleBtf errata) = some (cstr "smb2_mid_entry_alloc") := by
  simp only [allocProgram]
  split_ifs <;> decide +kernel

theorem rhel810_ok {env : Environment} {noModuleBtf errata : Bool}
    (h : rhel810 env = .ok (noModuleBtf, errata)) :
    (noModuleBtf = false ∧ env.cifsBtfReadable = true) ∨
    (noModuleBtf = true ∧ env.cifsBtfReadable = false ∧ ∃ v ∈ verifiedLayouts,
      env.runs v.release v.srcversion = true ∧ v.mid = (if errata then 24 else 32) ∧
        v.command = (if errata then 40 else 124) ∧ v.refcount = 16) := by
  simp only [rhel810] at h
  split_ifs at h with hbtf hbase herrata134 herrata164
  · cases h
    exact .inl ⟨rfl, hbtf⟩
  · cases h
    exact .inr ⟨rfl, by simpa using hbtf, _, .head _, hbase, rfl, rfl, rfl⟩
  · cases h
    exact .inr ⟨rfl, by simpa using hbtf, _, .tail _ (.head _), herrata134, rfl, rfl, rfl⟩
  · cases h
    exact .inr ⟨rfl, by simpa using hbtf, _, .tail _ (.tail _ (.head _)), herrata164, rfl, rfl, rfl⟩

theorem lookupRelease_noModuleBtf (env : Environment) (errata : Bool) :
    lookupRelease env true errata =
      ⟨if errata then cstr "__release_mid" else cstr "_cifs_mid_q_entry_release", 1, true,
        false⟩ := by
  simp [lookupRelease, ENOENT]

theorem lookupRelease_cases (env : Environment) (errata : Bool) :
    (env.getFuncParamCount (cstr "__release_mid") ≠ -2 ∧
      lookupRelease env false errata =
        ⟨cstr "__release_mid", env.getFuncParamCount (cstr "__release_mid"), false, false⟩) ∨
    (env.getFuncParamCount (cstr "__release_mid") = -2 ∧
      env.getFuncParamCount (cstr "release_mid") ≠ -2 ∧
      lookupRelease env false errata = ⟨cstr "release_mid",
        env.getFuncParamCount (cstr "release_mid"), false,
        env.getFuncParamCount (cstr "release_mid") = 1⟩) ∨
    (env.getFuncParamCount (cstr "__release_mid") = -2 ∧
      env.getFuncParamCount (cstr "release_mid") = -2 ∧
      lookupRelease env false errata = ⟨cstr "_cifs_mid_q_entry_release",
        env.getFuncParamCount (cstr "_cifs_mid_q_entry_release"), true, false⟩) := by
  by_cases hfirst : env.getFuncParamCount (cstr "__release_mid") = -2
  · by_cases hsecond : env.getFuncParamCount (cstr "release_mid") = -2
    · exact .inr (.inr ⟨hfirst, hsecond, by simp [lookupRelease, ENOENT, hfirst, hsecond]⟩)
    · exact .inr (.inl ⟨hfirst, hsecond, by simp [lookupRelease, ENOENT, hfirst, hsecond]⟩)
  · exact .inl ⟨hfirst, by simp [lookupRelease, ENOENT, hfirst]⟩

theorem lookupRelease_counted (env : Environment) (errata : Bool) :
    (lookupRelease env false errata).releaseMidParams =
      env.getFuncParamCount (lookupRelease env false errata).releaseFunc := by
  obtain ⟨-, hr⟩ | ⟨-, -, hr⟩ | ⟨-, -, hr⟩ := lookupRelease_cases env errata <;> rw [hr]

theorem supported_iff (r : ReleaseLookup) : r.unsupported = false ↔
    r.releaseMidParams = 1 ∨ (r.releaseMidParams = 2 ∧ r.legacyRelease = false) := by
  cases hlegacy : r.legacyRelease <;> simp [ReleaseLookup.unsupported, hlegacy] <;> omega

/-- A two-parameter `release_mid` gets the program of `__release_mid`. -/
def MisattachedPair (env : Environment) : Prop :=
  env.getFuncParamCount (cstr "__release_mid") = -2 ∧
    env.getFuncParamCount (cstr "release_mid") = 2

/-- The lookups `main` accepts, but for a two-parameter `release_mid`. -/
def matchedLookups : List ReleaseLookup :=
  [⟨cstr "__release_mid", 1, false, false⟩, ⟨cstr "__release_mid", 2, false, false⟩,
    ⟨cstr "release_mid", 1, false, true⟩, ⟨cstr "_cifs_mid_q_entry_release", 1, true, false⟩]

theorem matched_of_one {env : Environment} {errata : Bool}
    (hone : (lookupRelease env false errata).releaseMidParams = 1) :
    lookupRelease env false errata ∈ matchedLookups := by
  obtain ⟨-, hr⟩ | ⟨-, -, hr⟩ | ⟨-, -, hr⟩ := lookupRelease_cases env errata
  all_goals
    rw [hr] at hone ⊢
    simp only at hone
    simp [hone, matchedLookups]

theorem lookupRelease_matched {env : Environment} {errata : Bool} (hpair : ¬ MisattachedPair env)
    (hsupported : (lookupRelease env false errata).unsupported = false) :
    lookupRelease env false errata ∈ matchedLookups := by
  obtain hone | ⟨htwo, hlegacy⟩ := (supported_iff _).mp hsupported
  · exact matched_of_one hone
  · obtain ⟨-, hr⟩ | ⟨hfirst, -, hr⟩ | ⟨-, -, hr⟩ := lookupRelease_cases env errata
    · rw [hr] at htwo ⊢
      simp only at htwo
      simp [htwo, matchedLookups]
    · rw [hr] at htwo
      exact absurd ⟨hfirst, htwo⟩ hpair
    · rw [hr] at hlegacy
      exact absurd hlegacy.symm Bool.false_ne_true

theorem releaseProgram_fits (env : Environment) (errata : Bool) :
    ∀ r ∈ matchedLookups, target (releaseProgram env false errata r) = some r.releaseFunc ∧
      arguments (releaseProgram env false errata r) = some (expectedArguments r) := by
  simp only [matchedLookups, List.forall_mem_cons, releaseProgram, Bool.false_eq_true, if_false]
  refine ⟨?_, ?_, ?_, ?_, by simp⟩ <;> cases _ && _ <;> decide +kernel

theorem allocProgram_notMem (env : Environment) (noModuleBtf errata : Bool) :
    allocProgram env noModuleBtf errata ∉ releasePrograms := by
  simp only [allocProgram]
  split_ifs <;> decide

/-- What the probe mode of `select` comes to when it does not give up. -/
theorem select_ok {env : Environment} {s : Selection} (hselect : select env = .ok s)
    (htracepoints : env.useTracepoints = false) :
    ∃ noModuleBtf errata, rhel810 env = .ok (noModuleBtf, errata) ∧
      (lookupRelease env noModuleBtf errata).unsupported = false ∧
      s = ⟨((selectAlloc env noModuleBtf errata .opened).set releasePrograms false).set
          [releaseProgram env noModuleBtf errata (lookupRelease env noModuleBtf errata)] true,
        some (lookupRelease env noModuleBtf errata)⟩ := by
  simp only [select, htracepoints, Bool.false_eq_true, if_false] at hselect
  cases hlayout : rhel810 env with
  | error failure =>
    rw [hlayout] at hselect
    cases hselect
  | ok flags =>
    obtain ⟨noModuleBtf, errata⟩ := flags
    rw [hlayout] at hselect
    cases hunsupported : (lookupRelease env noModuleBtf errata).unsupported with
    | true =>
      simp [hunsupported, bind, Except.bind, throw, throwThe, MonadExceptOf.throw] at hselect
    | false =>
      simp only [hunsupported, bind, Except.bind, Bool.false_eq_true, if_false, pure,
        Except.pure, Except.ok.injEq] at hselect
      exact ⟨noModuleBtf, errata, rfl, hunsupported, hselect.symm⟩

theorem select_loads {env : Environment} {s : Selection} (hselect : select env = .ok s)
    (htracepoints : env.useTracepoints = false) :
    ∃ noModuleBtf errata, rhel810 env = .ok (noModuleBtf, errata) ∧
      (lookupRelease env noModuleBtf errata).unsupported = false ∧
      s.release = some (lookupRelease env noModuleBtf errata) ∧
      s.switches.autoattach = s.switches.autoload ∧
      ∀ p, s.switches.autoload p = true ↔ p = allocProgram env noModuleBtf errata ∨
        p = releaseProgram env noModuleBtf errata (lookupRelease env noModuleBtf errata) := by
  obtain ⟨noModuleBtf, errata, hlayout, hsupported, rfl⟩ := select_ok hselect htracepoints
  refine ⟨noModuleBtf, errata, hlayout, hsupported, rfl, ?_, fun p => ?_⟩
  · exact Switches.set_autoattach (Switches.set_autoattach
      (selectAlloc_autoattach env noModuleBtf errata) _ _) _ _
  · simp only [Switches.set, List.mem_singleton]
    split_ifs with hchosen hother
    · simp [hchosen]
    · simp only [hchosen, or_false, false_iff]
      rintro rfl
      exact allocProgram_notMem env noModuleBtf errata hother
    · rw [selectAlloc_autoload]
      simp [hchosen, hother]

theorem fixedOffsets_allocProgram (env : Environment) (noModuleBtf errata : Bool) :
    fixedOffsets (allocProgram env noModuleBtf errata) =
      if noModuleBtf then
        some (.request (if errata then 24 else 32) (if errata then 40 else 124))
      else none := by
  simp only [allocProgram]
  split_ifs <;> rfl

theorem fixedOffsets_releaseProgram (env : Environment) (noModuleBtf errata : Bool)
    (r : ReleaseLookup) :
    fixedOffsets (releaseProgram env noModuleBtf errata r) =
      if noModuleBtf then some (.container 16) else none := by
  simp only [releaseProgram]
  split_ifs <;> rfl

theorem select_offsetsVerified {env : Environment} {s : Selection}
    (hselect : select env = .ok s) (htracepoints : env.useTracepoints = false) :
    OffsetsVerified env s := by
  obtain ⟨noModuleBtf, errata, hlayout, -, -, -, hloads⟩ := select_loads hselect htracepoints
  intro p o hp hoffsets
  obtain ⟨hbtf, -⟩ | ⟨hbtf, -, v, hv, hruns, hmid, hcommand, hrefcount⟩ := rhel810_ok hlayout
  · obtain rfl | rfl := (hloads p).mp hp
    · simp [fixedOffsets_allocProgram, hbtf] at hoffsets
    · simp [fixedOffsets_releaseProgram, hbtf] at hoffsets
  · refine ⟨v, hv, hruns, ?_⟩
    obtain rfl | rfl := (hloads p).mp hp
    · rw [fixedOffsets_allocProgram, if_pos hbtf, Option.some.injEq] at hoffsets
      subst hoffsets
      exact ⟨hmid.symm, hcommand.symm⟩
    · rw [fixedOffsets_releaseProgram, if_pos hbtf, Option.some.injEq] at hoffsets
      subst hoffsets
      exact hrefcount.symm

theorem select_tracepoints {env : Environment} {s : Selection} (hselect : select env = .ok s)
    (htracepoints : env.useTracepoints = true) : WellSelected env s := by
  simp only [select, htracepoints, if_true, Except.ok.injEq] at hselect
  subst hselect
  refine ⟨rfl, fun p o hp hoffsets => ?_, .inl fun p => ?_⟩
  · cases p <;> cases hoffsets <;> cases hp
  · cases p <;> decide

/-- The fixed layouts are chosen with the release function they belong to. -/
theorem releaseProgram_fits_noModuleBtf (env : Environment) (errata : Bool) :
    target (releaseProgram env true errata (lookupRelease env true errata)) =
        some (lookupRelease env true errata).releaseFunc ∧
      arguments (releaseProgram env true errata (lookupRelease env true errata)) =
        some (expectedArguments (lookupRelease env true errata)) := by
  rw [lookupRelease_noModuleBtf]
  simp only [releaseProgram, if_true]
  cases errata <;> decide +kernel

theorem select_probes {env : Environment} {s : Selection} (hselect : select env = .ok s)
    (htracepoints : env.useTracepoints = false)
    (hpair : ¬ (env.cifsBtfReadable = true ∧ MisattachedPair env)) : WellSelected env s := by
  obtain ⟨noModuleBtf, errata, hlayout, hsupported, hrelease, hattach, hloads⟩ :=
    select_loads hselect htracepoints
  have hfits : target (releaseProgram env noModuleBtf errata
          (lookupRelease env noModuleBtf errata)) =
        some (lookupRelease env noModuleBtf errata).releaseFunc ∧
      arguments (releaseProgram env noModuleBtf errata (lookupRelease env noModuleBtf errata)) =
        some (expectedArguments (lookupRelease env noModuleBtf errata)) := by
    obtain ⟨rfl, hbtf⟩ | ⟨rfl, -, -⟩ := rhel810_ok hlayout
    · exact releaseProgram_fits env errata _
        (lookupRelease_matched (fun h => hpair ⟨hbtf, h⟩) hsupported)
    · exact releaseProgram_fits_noModuleBtf env errata
  refine ⟨hattach, select_offsetsVerified hselect htracepoints, .inr ⟨_, _, _,
    hloads, target_allocProgram env noModuleBtf errata, hrelease, fun hbtf => ?_, hfits.1,
    hfits.2⟩⟩
  obtain ⟨rfl, -⟩ | ⟨-, hnone, -⟩ := rhel810_ok hlayout
  · exact lookupRelease_counted env errata
  · rw [hbtf] at hnone
    cases hnone

theorem target_releaseProgram_pair (env : Environment) (errata : Bool) :
    target (releaseProgram env false errata ⟨cstr "release_mid", 2, false, false⟩) =
      some (cstr "__release_mid") := by
  simp only [releaseProgram, Bool.false_eq_true, if_false, if_true]
  cases _ && _ <;> decide +kernel

/-- In the remaining case the loaded programs are for other functions. -/
theorem select_misattached {env : Environment} (htracepoints : env.useTracepoints = false)
    (hbtf : env.cifsBtfReadable = true) (hpair : MisattachedPair env) :
    ∃ s, select env = .ok s ∧ ¬ WellSelected env s := by
  have hlookup : ∀ errata, lookupRelease env false errata =
      ⟨cstr "release_mid", 2, false, false⟩ := by
    intro errata
    simp [lookupRelease, ENOENT, hpair.1, hpair.2]
  have hlayout : rhel810 env = .ok (false, false) := by simp [rhel810, hbtf]
  obtain ⟨s, hselect⟩ : ∃ s, select env = .ok s := by
    simp only [select, htracepoints, Bool.false_eq_true, if_false, hlayout, bind, Except.bind,
      hlookup]
    exact ⟨_, rfl⟩
  refine ⟨s, hselect, ?_⟩
  obtain ⟨noModuleBtf, errata, hflags, -, hrelease, -, hloads⟩ :=
    select_loads hselect htracepoints
  rw [hlayout, Except.ok.injEq, Prod.mk.injEq] at hflags
  obtain ⟨rfl, rfl⟩ := hflags
  rw [hlookup] at hrelease hloads
  rintro ⟨-, -, honly | ⟨alloc, release, r, hprobes⟩⟩
  · have hloaded := (honly .traceSmb3CmdEnter).mpr (by decide)
    rw [hloads] at hloaded
    simp only [allocProgram, releaseProgram] at hloaded
    split_ifs at hloaded <;> simp at hloaded
  · have hr : r = ⟨cstr "release_mid", 2, false, false⟩ :=
      Option.some.inj (hprobes.looked_up.symm.trans hrelease)
    have htarget := hprobes.on_release
    rw [hr] at htarget
    obtain rfl | rfl := (hloads release).mp ((hprobes.loaded release).mpr (.inr rfl))
    · rw [target_allocProgram] at htarget
      exact absurd htarget (by decide +kernel)
    · rw [target_releaseProgram_pair] at htarget
      exact absurd htarget (by decide +kernel)

/-- `main` selects well unless it uses probes, `__release_mid` is not in the BTF of
the module and `release_mid` has two parameters. -/
theorem selected_well_iff (env : Environment) :
    (∀ s, select env = .ok s → WellSelected env s) ↔
      ¬ (env.useTracepoints = false ∧ env.cifsBtfReadable = true ∧
        env.getFuncParamCount (cstr "__release_mid") = -2 ∧
        env.getFuncParamCount (cstr "release_mid") = 2) := by
  constructor
  · rintro hwell ⟨htracepoints, hbtf, hpair⟩
    obtain ⟨s, hselect, hnot⟩ := select_misattached htracepoints hbtf hpair
    exact hnot (hwell s hselect)
  · intro hcond s hselect
    cases htracepoints : env.useTracepoints with
    | true => exact select_tracepoints hselect htracepoints
    | false =>
      exact select_probes hselect htracepoints fun hpair => hcond ⟨htracepoints, hpair⟩

/-- A kernel whose `release_mid` takes the server and the request. -/
def serverReleaseMid : Environment where
  skipTracepoints := true
  tracepointExists := fun _ => true
  cifsBtfReadable := true
  release := some (cstr "6.19.0")
  srcversion := none
  fentryCanAttach := fun _ => true
  getFuncParamCount := fun f => if f = cstr "release_mid" then 2 else -2

/-- There the program of `__release_mid` is loaded for `release_mid`. -/
theorem selected_well_fails_serverReleaseMid :
    ¬ ∀ s, select serverReleaseMid = .ok s → WellSelected serverReleaseMid s := by
  intro hwell
  have htracepoints : serverReleaseMid.useTracepoints = false := rfl
  have hpair : MisattachedPair serverReleaseMid := ⟨by decide +kernel, by decide +kernel⟩
  obtain ⟨s, hselect, hnot⟩ := select_misattached htracepoints rfl hpair
  exact hnot (hwell s hselect)

end MonitoringTools.SmbslowerSelection
