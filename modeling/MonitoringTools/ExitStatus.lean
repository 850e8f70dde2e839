import Mathlib.Algebra.Order.Ring.Int
import Mathlib.Tactic.Common

/-!
# What the loaders return

The six loaders share one shape: calls that must succeed, each of which jumps to the
cleanup with whatever `err` holds when it fails, and a loop that a signal, a deadline
or a failing poll ends. Two tools turn a negative `err` into one, four into its
magnitude; every other value becomes zero. The environment keeps the low eight bits
of what `main` returns.
-/
namespace MonitoringTools.ExitStatus

/-- The calls of the startups that lead to a cleanup when they fail. -/
inductive Call where
  | selection | load | realpath | stat | mountFilter | attach | threshold | ringBuffer | signal
  | denylist | allowlistCmds | allowlistErrors
  deriving DecidableEq, Repr

/-- A call, whether it succeeded, and what `err` holds at the cleanup if it did not. -/
structure Step where
  call : Call
  ok : Bool
  err : ℤ
  deriving DecidableEq, Repr

abbrev Errno := {n : ℕ // 0 < n ∧ n ≤ 4095}

abbrev Result := Option Errno

def Result.value : Result → ℤ
  | none => 0
  | some n => -n.1

/-- A call whose return value is kept in `err`. -/
def libbpf (call : Call) (r : Result) : Step := ⟨call, r.isNone, r.value⟩

def eintr : ℤ := 4
def enotsup : ℤ := 95

structure Mount where
  realpath : Bool
  stat : Bool
  update : Result
  deriving DecidableEq, Repr

/-- One round of the loop: the result of the poll, whether the deadline has passed after
it, and whether a signal has come by the next test. -/
structure Poll where
  ret : ℤ
  late : Bool
  exiting : Bool
  deriving DecidableEq, Repr

/-- What happens to iosnoop or ioslower. `exiting` tells of a signal before the loop. -/
structure PollingOutcomes where
  opened : Bool
  load : Result
  mount : Option Mount
  attach : Result
  ringBuffer : Bool
  signal : Bool
  exiting : Bool
  duration : Bool
  polls : List Poll
  deriving DecidableEq, Repr

inductive Sig where
  | int
  | term
  deriving DecidableEq, Repr

/-- What happens to one of the diagnostic tools. The results of the two installations
are not looked at; `stop` is the first signal that comes. -/
structure DiagOutcomes where
  installed : Sig → Bool
  opened : Bool
  load : Result
  attach : Result
  stop : Option Sig

/-- The first two calls leave `err` as the load set it. -/
def mountSteps : Option Mount → List Step
  | none => []
  | some m => [⟨.realpath, m.realpath, 0⟩, ⟨.stat, m.stat, 0⟩, libbpf .mountFilter m.update]

/-- The calls of a tool that polls; one of them configures more after the attach. -/
def pollingSteps (o : PollingOutcomes) (configuration : List Step) : List Step :=
  [libbpf .load o.load] ++ mountSteps o.mount ++ [libbpf .attach o.attach] ++ configuration ++
    [⟨.ringBuffer, o.ringBuffer, -1⟩, ⟨.signal, o.signal, 1⟩]

def iosnoopSteps (o : PollingOutcomes) : List Step := pollingSteps o []

def ioslowerSteps (o : PollingOutcomes) (threshold : Result) : List Step :=
  pollingSteps o [libbpf .threshold threshold]

def smbslowerSteps (o : DiagOutcomes) (selection denylist : Bool) : List Step :=
  [⟨.selection, selection, -enotsup⟩, libbpf .load o.load, ⟨.denylist, denylist, 0⟩,
    libbpf .attach o.attach]

def nfsslowerSteps (o : DiagOutcomes) (denylist : Bool) : List Step :=
  [libbpf .load o.load, ⟨.denylist, denylist, 0⟩, libbpf .attach o.attach]

def nfsiosnoopSteps (o : DiagOutcomes) (cmds errors : Bool) : List Step :=
  [libbpf .load o.load, ⟨.allowlistCmds, cmds, 0⟩, ⟨.allowlistErrors, errors, 0⟩,
    libbpf .attach o.attach]

def smbiosnoopSteps (o : DiagOutcomes) (cmds errors : Bool) : List Step :=
  [libbpf .load o.load, ⟨.allowlistCmds, cmds, -1⟩, ⟨.allowlistErrors, errors, -1⟩,
    libbpf .attach o.attach]

def firstFailure (steps : List Step) : Option Step := steps.find? fun s => !s.ok

/-- The loop, from a value of `err` on; `none` while it still runs. -/
def pollLoop (duration : Bool) (err : ℤ) (exiting : Bool) : List Poll → Option ℤ
  | [] => if exiting then some err else none
  | p :: ps =>
      if exiting then some err
      else if p.ret < 0 ∧ p.ret ≠ -eintr then some p.ret
      else if duration && p.late then some p.ret
      else pollLoop duration p.ret p.exiting ps

/-- The value that `main` of iosnoop or ioslower returns, if it does. -/
def pollingMain (o : PollingOutcomes) (steps : List Step) : Option ℤ :=
  if !o.opened then some 1
  else
    let err := match firstFailure steps with
      | some failed => some failed.err
      | none => pollLoop o.duration 0 o.exiting o.polls
    err.map fun err => if err < 0 then 1 else 0

/-- A signal whose handler is installed ends the loop; another one kills the process. -/
def DiagOutcomes.paused (o : DiagOutcomes) : Option ℤ :=
  o.stop.bind fun sig => if o.installed sig then some 0 else none

def diagMain (o : DiagOutcomes) (steps : List Step) : Option ℤ :=
  if !o.opened then some 1
  else
    let err := match firstFailure steps with
      | some failed => some failed.err
      | none => o.paused
    err.map fun err => if err < 0 then -err else 0

inductive Process where
  | iosnoop (o : PollingOutcomes)
  | ioslower (o : PollingOutcomes) (threshold : Result)
  | smbslower (o : DiagOutcomes) (selection denylist : Bool)
  | nfsslower (o : DiagOutcomes) (denylist : Bool)
  | nfsiosnoop (o : DiagOutcomes) (cmds errors : Bool)
  | smbiosnoop (o : DiagOutcomes) (cmds errors : Bool)

namespace Process

def steps : Process → List Step
  | iosnoop o => iosnoopSteps o
  | ioslower o threshold => ioslowerSteps o threshold
  | smbslower o selection denylist => smbslowerSteps o selection denylist
  | nfsslower o denylist => nfsslowerSteps o denylist
  | nfsiosnoop o cmds errors => nfsiosnoopSteps o cmds errors
  | smbiosnoop o cmds errors => smbiosnoopSteps o cmds errors

def main (p : Process) : Option ℤ :=
  match p with
  | iosnoop o | ioslower o _ => pollingMain o p.steps
  | smbslower o _ _ | nfsslower o _ | nfsiosnoop o _ _ | smbiosnoop o _ _ => diagMain o p.steps

/-- The exit status of a process that returns. -/
def exitStatus (p : Process) : Option ℕ := p.main.map fun ret => (ret % 256).toNat

def opened : Process → Bool
  | iosnoop o | ioslower o _ => o.opened
  | smbslower o _ _ | nfsslower o _ | nfsiosnoop o _ _ | smbiosnoop o _ _ => o.opened

end Process

def Poll.Fails (p : Poll) : Prop := p.ret < 0 ∧ p.ret ≠ -eintr

/-- A signal or the deadline ends the loop after the poll. -/
def Poll.Stops (duration : Bool) (p : Poll) : Prop :=
  p.exiting = true ∨ (duration = true ∧ p.late = true)

instance : DecidablePred Poll.Fails := fun _ => inferInstanceAs (Decidable (_ ∧ _))

instance (duration : Bool) : DecidablePred (Poll.Stops duration) :=
  fun _ => inferInstanceAs (Decidable (_ ∨ _))

/-- The poll after which the loop does not go on. -/
def PollingOutcomes.lastPoll (o : PollingOutcomes) : Option Poll :=
  o.polls.find? fun p => p.Fails ∨ p.Stops o.duration

/-- A signal or the deadline ends the loop rather than a failing poll. -/
def PollingOutcomes.EndsWell (o : PollingOutcomes) : Prop :=
  o.exiting = true ∨ ∃ p ∈ o.lastPoll, ¬ p.Fails

/-- The last poll was interrupted. -/
def PollingOutcomes.Interrupted (o : PollingOutcomes) : Prop :=
  o.exiting = false ∧ ∃ p ∈ o.lastPoll, p.ret = -eintr

/-- Both handlers were installed. -/
def DiagOutcomes.Installed (o : DiagOutcomes) : Prop := ∀ sig, o.installed sig = true

namespace Process

/-- Everything succeeded, and a signal or the deadline ended the loop. -/
def Succeeded (p : Process) : Prop :=
  p.opened = true ∧ (∀ s ∈ p.steps, s.ok = true) ∧
    match p with
    | iosnoop o | ioslower o _ => o.EndsWell
    | smbslower o _ _ | nfsslower o _ | nfsiosnoop o _ _ | smbiosnoop o _ _ =>
        o.Installed ∧ o.stop.isSome = true

/-- An error number that the exit status cannot show. -/
def Wraps (s : Step) : Prop := (s.call = .load ∨ s.call = .attach) ∧ s.err % 256 = 0

/-- The failing call is one whose failure is not returned. -/
def Silent (p : Process) (s : Step) : Prop :=
  match p with
  | iosnoop _ | ioslower _ _ => s.call = .realpath ∨ s.call = .stat ∨ s.call = .signal
  | smbslower _ _ _ | nfsslower _ _ | nfsiosnoop _ _ _ =>
      s.call = .denylist ∨ s.call = .allowlistCmds ∨ s.call = .allowlistErrors ∨ Wraps s
  | smbiosnoop _ _ _ => Wraps s

/-- All calls succeed, yet the end is told wrong: an interrupted last poll as a failure,
a handler that is missing not at all. -/
def EndsOdd (p : Process) : Prop :=
  match p with
  | iosnoop o | ioslower o _ => o.Interrupted
  | smbslower o _ _ | nfsslower o _ | nfsiosnoop o _ _ | smbiosnoop o _ _ => ¬ o.Installed

/-- The first call that fails is silent, or none fails and the end is odd. -/
def Misreported (p : Process) : Prop :=
  p.opened = true ∧ match firstFailure p.steps with
    | some s => p.Silent s
    | none => p.EndsOdd

end Process

theorem firstFailure_eq_none_iff {steps : List Step} :
    firstFailure steps = none ↔ ∀ s ∈ steps, s.ok = true := by
  simp [firstFailure]

/-- The loop ends at once on a pending signal, and else with the result of the last poll. -/
theorem pollLoop_eq (duration : Bool) (err : ℤ) (exiting : Bool) (polls : List Poll) :
    pollLoop duration err exiting polls = if exiting then some err
      else (polls.find? fun p => p.Fails ∨ p.Stops duration).map Poll.ret := by
  induction polls generalizing err exiting with
  | nil => rfl
  | cons p ps ih =>
      rw [pollLoop]
      split
      next => rfl
      next =>
          rw [List.find?_cons]
          by_cases hfails : p.Fails
          · rw [if_pos (show p.ret < 0 ∧ p.ret ≠ -eintr from hfails), decide_eq_true (.inl hfails)]
            rfl
          · rw [if_neg (show ¬ (p.ret < 0 ∧ p.ret ≠ -eintr) from hfails), ih]
            by_cases hlate : duration = true ∧ p.late = true
            · rw [if_pos (by simp [hlate]), decide_eq_true (.inr (.inr hlate))]
              rfl
            · have hlate' : ¬ (duration && p.late) = true := by simpa using hlate
              rw [if_neg hlate']
              by_cases hexiting : p.exiting = true
              · rw [if_pos hexiting, decide_eq_true (.inr (.inl hexiting))]
                rfl
              · have hon : ¬ (p.Fails ∨ p.Stops duration) := by
                  rintro (h | h | h)
                  · exact hfails h
                  · exact hexiting h
                  · exact hlate h
                rw [if_neg hexiting, decide_eq_false hon]

theorem Result.value_neg {r : Result} (h : r.isNone = false) : r.value < 0 := by
  cases r with
  | none => cases h
  | some n =>
      have hpos := n.2.1
      simp only [Result.value]
      omega

theorem libbpf_err_neg {call : Call} {r : Result} (h : (libbpf call r).ok = false) :
    (libbpf call r).err < 0 := Result.value_neg h

/-- In a tool that polls, a failing call leaves a negative `err` unless it is silent. -/
theorem err_neg_iff_of_pollingSteps {o : PollingOutcomes} {configuration : List Step} {s : Step}
    (hconfiguration : ∀ s ∈ configuration, ∃ r, s = libbpf .threshold r)
    (h : s ∈ pollingSteps o configuration) (hfails : s.ok = false) :
    s.err < 0 ↔ ¬ (s.call = .realpath ∨ s.call = .stat ∨ s.call = .signal) := by
  have hlibbpf : ∀ {call r}, s = libbpf call r → call ≠ .realpath → call ≠ .stat →
      call ≠ .signal → (s.err < 0 ↔ ¬ (s.call = .realpath ∨ s.call = .stat ∨ s.call = .signal)) := by
    rintro call r rfl hrealpath hstat hsignal
    exact iff_of_true (libbpf_err_neg hfails) (by simp [libbpf, hrealpath, hstat, hsignal])
  simp only [pollingSteps, List.mem_append, List.mem_cons, List.not_mem_nil, or_false] at h
  obtain (((hload | hmount) | hattach) | hthreshold) | hring | hsignal := h
  · exact hlibbpf hload (by decide) (by decide) (by decide)
  · cases hm : o.mount with
    | none =>
        rw [hm] at hmount
        cases hmount
    | some m =>
        simp only [hm, mountSteps, List.mem_cons, List.not_mem_nil, or_false] at hmount
        obtain rfl | rfl | hupdate := hmount
        · simp
        · simp
        · exact hlibbpf hupdate (by decide) (by decide) (by decide)
  · exact hlibbpf hattach (by decide) (by decide) (by decide)
  · obtain ⟨r, hr⟩ := hconfiguration s hthreshold
    exact hlibbpf hr (by decide) (by decide) (by decide)
  · subst hring
    simp
  · subst hsignal
    simp

theorem firstFailure_eq_some {steps : List Step} {s : Step} (h : firstFailure steps = some s) :
    s ∈ steps ∧ s.ok = false := by
  refine ⟨List.mem_of_find?_eq_some h, ?_⟩
  simpa using List.find?_some h

theorem not_all_ok {steps : List Step} {s : Step} (h : firstFailure steps = some s) :
    ¬ ∀ s ∈ steps, s.ok = true := by
  intro hall
  rw [← firstFailure_eq_none_iff, h] at hall
  cases hall

theorem polling_status_eq_zero_iff (err : ℤ) :
    (((if err < 0 then 1 else 0 : ℤ)) % 256).toNat = 0 ↔ ¬ err < 0 := by
  split <;> simp [*]

/-- An interrupted last poll is the only way for the loop to leave a misleading `err`. -/
theorem loop_err_iff {o : PollingOutcomes} {err : ℤ}
    (h : pollLoop o.duration 0 o.exiting o.polls = some err) :
    (¬ err < 0 ↔ o.EndsWell) ↔ ¬ o.Interrupted := by
  rw [pollLoop_eq] at h
  split at h
  next hexiting =>
      cases h
      simp [PollingOutcomes.EndsWell, PollingOutcomes.Interrupted, hexiting]
  next hexiting =>
      obtain ⟨p, hp, rfl⟩ := Option.map_eq_some_iff.mp h
      have hlast : o.lastPoll = some p := hp
      have hnot : o.exiting = false := by simpa using hexiting
      simp only [PollingOutcomes.EndsWell, PollingOutcomes.Interrupted, hnot, hlast,
        Option.mem_def, Option.some.injEq, exists_eq_left', Bool.false_eq_true, false_or, true_and]
      rw [Poll.Fails, eintr]
      omega

theorem polling_reports_iff {o : PollingOutcomes} {steps : List Step} {silent : Step → Prop}
    {status : ℕ} (hsilent : ∀ s ∈ steps, s.ok = false → (s.err < 0 ↔ ¬ silent s))
    (h : (pollingMain o steps).map (fun ret => (ret % 256).toNat) = some status) :
    (status = 0 ↔ o.opened = true ∧ (∀ s ∈ steps, s.ok = true) ∧ o.EndsWell) ↔
      ¬ (o.opened = true ∧ match firstFailure steps with
        | some s => silent s
        | none => o.Interrupted) := by
  obtain ⟨ret, hret, rfl⟩ := Option.map_eq_some_iff.mp h
  cases hopened : o.opened with
  | false =>
      rw [pollingMain, hopened] at hret
      cases hret
      simp
  | true =>
      simp only [pollingMain, hopened, Bool.not_true, Bool.false_eq_true, if_false] at hret
      cases hfailure : firstFailure steps with
      | some s =>
          rw [hfailure] at hret
          cases hret
          obtain ⟨hmem, hfails⟩ := firstFailure_eq_some hfailure
          have hall := not_all_ok hfailure
          simp only [polling_status_eq_zero_iff, hall, hsilent s hmem hfails, not_not, true_and,
            false_and, iff_false]
      | none =>
          rw [hfailure] at hret
          obtain ⟨err, herr, rfl⟩ := Option.map_eq_some_iff.mp hret
          simp only [polling_status_eq_zero_iff, true_and]
          rw [and_iff_right (firstFailure_eq_none_iff.mp hfailure)]
          exact loop_err_iff herr

theorem diag_status_eq_zero_iff (err : ℤ) :
    ((if err < 0 then -err else 0) % 256 : ℤ).toNat = 0 ↔ 0 ≤ err ∨ err % 256 = 0 := by
  split <;> omega

theorem diag_reports_iff {o : DiagOutcomes} {steps : List Step} {silent : Step → Prop}
    {status : ℕ} (hsilent : ∀ s ∈ steps, s.ok = false → (0 ≤ s.err ∨ s.err % 256 = 0 ↔ silent s))
    (h : (diagMain o steps).map (fun ret => (ret % 256).toNat) = some status) :
    (status = 0 ↔ o.opened = true ∧ (∀ s ∈ steps, s.ok = true) ∧ o.Installed ∧
        o.stop.isSome = true) ↔
      ¬ (o.opened = true ∧ match firstFailure steps with
        | some s => silent s
        | none => ¬ o.Installed) := by
  obtain ⟨ret, hret, rfl⟩ := Option.map_eq_some_iff.mp h
  cases hopened : o.opened with
  | false =>
      rw [diagMain, hopened] at hret
      cases hret
      simp
  | true =>
      simp only [diagMain, hopened, Bool.not_true, Bool.false_eq_true, if_false] at hret
      cases hfailure : firstFailure steps with
      | some s =>
          rw [hfailure] at hret
          cases hret
          obtain ⟨hmem, hfails⟩ := firstFailure_eq_some hfailure
          have hall := not_all_ok hfailure
          simp only [diag_status_eq_zero_iff, hall, hsilent s hmem hfails, true_and, false_and,
            iff_false]
      | none =>
          rw [hfailure] at hret
          obtain ⟨err, herr, rfl⟩ := Option.map_eq_some_iff.mp hret
          obtain ⟨sig, hstop, hpaused⟩ := Option.bind_eq_some_iff.mp herr
          obtain ⟨-, ⟨⟩⟩ := Option.ite_none_right_eq_some.mp hpaused
          simp only [diag_status_eq_zero_iff, hstop, true_and, Option.isSome_some, and_true]
          rw [and_iff_right (firstFailure_eq_none_iff.mp hfailure)]
          simp

/-- In a diagnostic tool a failing libbpf call is silent when its number wraps to zero. -/
theorem silent_libbpf {call : Call} {r : Result} (hcall : call = .load ∨ call = .attach)
    (hfails : (libbpf call r).ok = false) :
    0 ≤ (libbpf call r).err ∨ (libbpf call r).err % 256 = 0 ↔ Process.Wraps (libbpf call r) := by
  rw [or_iff_right (not_le.mpr (libbpf_err_neg hfails))]
  exact (and_iff_right hcall).symm

theorem silent_iff_of_diag {p : Process} {s : Step} (hs : s ∈ p.steps) (hfails : s.ok = false)
    (hdiag : ∀ o threshold, p ≠ .iosnoop o ∧ p ≠ .ioslower o threshold) :
    0 ≤ s.err ∨ s.err % 256 = 0 ↔ p.Silent s := by
  have hlibbpf : ∀ {call r}, call = .load ∨ call = .attach → s = libbpf call r →
      (0 ≤ s.err ∨ s.err % 256 = 0 ↔ p.Silent s) := by
    rintro call r hcall rfl
    rw [silent_libbpf hcall hfails]
    cases p with
    | iosnoop o => exact absurd rfl (hdiag o none).1
    | ioslower o threshold => exact absurd rfl (hdiag o threshold).2
    | smbslower | nfsslower | nfsiosnoop =>
        rcases hcall with rfl | rfl <;> simp [Process.Silent, libbpf]
    | smbiosnoop => rfl
  cases p with
  | iosnoop o => exact absurd rfl (hdiag o none).1
  | ioslower o threshold => exact absurd rfl (hdiag o threshold).2
  | smbslower o selection denylist =>
      simp only [Process.steps, smbslowerSteps, List.mem_cons, List.not_mem_nil, or_false] at hs
      obtain rfl | hload | rfl | hattach := hs
      · simp [Process.Silent, Process.Wraps, enotsup]
      · exact hlibbpf (.inl rfl) hload
      · simp [Process.Silent]
      · exact hlibbpf (.inr rfl) hattach
  | nfsslower o denylist =>
      simp only [Process.steps, nfsslowerSteps, List.mem_cons, List.not_mem_nil, or_false] at hs
      obtain hload | rfl | hattach := hs
      · exact hlibbpf (.inl rfl) hload
      · simp [Process.Silent]
      · exact hlibbpf (.inr rfl) hattach
  | nfsiosnoop o cmds errors =>
      simp only [Process.steps, nfsiosnoopSteps, List.mem_cons, List.not_mem_nil, or_false] at hs
      obtain hload | rfl | rfl | hattach := hs
      · exact hlibbpf (.inl rfl) hload
      · simp [Process.Silent]
      · simp [Process.Silent]
      · exact hlibbpf (.inr rfl) hattach
  | smbiosnoop o cmds errors =>
      simp only [Process.steps, smbiosnoopSteps, List.mem_cons, List.not_mem_nil, or_false] at hs
      obtain hload | rfl | rfl | hattach := hs
      · exact hlibbpf (.inl rfl) hload
      · simp [Process.Silent, Process.Wraps]
      · simp [Process.Silent, Process.Wraps]
      · exact hlibbpf (.inr rfl) hattach

/-- The exit status is zero exactly after success, unless the process misreports. -/
theorem exitStatus_iff (p : Process) (status : ℕ) (h : p.exitStatus = some status) :
    (status = 0 ↔ p.Succeeded) ↔ ¬ p.Misreported := by
  cases p with
  | iosnoop o =>
      exact polling_reports_iff (fun s hs hfails =>
        err_neg_iff_of_pollingSteps (fun _ hin => absurd hin List.not_mem_nil) hs hfails) h
  | ioslower o threshold =>
      exact polling_reports_iff (fun s hs hfails => err_neg_iff_of_pollingSteps
        (fun _ hin => ⟨threshold, List.mem_singleton.mp hin⟩) hs hfails) h
  | smbslower | nfsslower | nfsiosnoop | smbiosnoop =>
      exact diag_reports_iff (fun s hs hfails => silent_iff_of_diag hs hfails (by simp)) h

/-- A run of iosnoop until its deadline, where one poll in between is interrupted. -/
def timed : Process :=
  .iosnoop ⟨true, none, none, none, true, true, false, true,
    [⟨3, false, false⟩, ⟨-eintr, false, false⟩, ⟨0, true, false⟩]⟩

theorem exitStatus_iff_timed :
    timed.exitStatus = some 0 ∧ ((0 = 0 ↔ timed.Succeeded) ↔ ¬ timed.Misreported) :=
  ⟨by decide, exitStatus_iff timed 0 (by decide)⟩

/-- A run of iosnoop whose mount path does not exist. -/
def missingPath : Process :=
  .iosnoop ⟨true, none, some ⟨false, true, none⟩, none, true, true, false, false, []⟩

/-- The process tells success although it never attached. -/
theorem exitStatus_fails_missingPath :
    ¬ ∀ (p : Process) (status : ℕ), p.exitStatus = some status → (status = 0 ↔ p.Succeeded) := by
  intro h
  have hsucceeded := (h missingPath 0 (by decide)).mp rfl
  exact absurd (hsucceeded.2.1 ⟨.realpath, false, 0⟩ (by decide)) (by decide)

end MonitoringTools.ExitStatus
