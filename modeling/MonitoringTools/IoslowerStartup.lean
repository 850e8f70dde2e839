import MonitoringTools.IoslowerCorrelation

/-!
# What ioslower prints from its first event on

The loader's `main` loads the programs, writes the mount filter, attaches,
writes the threshold, creates the ring buffer and polls. The probes fire from
the moment of the attach, while the threshold slot still reads zero, and their
events wait in the ring until the consumer exists. Between the two writes an
operation of any speed is emitted; afterwards only slow ones are.
-/
namespace MonitoringTools.IoslowerStartup
open BpfHelpers FilesystemProbes IoslowerProbes IoslowerCorrelation Runs

/-- How far `main` has come. -/
inductive Phase where
  | loaded | filtered | attached | configured | polling | stopped
  deriving DecidableEq, Repr

def Phase.probing : Phase → Bool
  | .attached | .configured | .polling => true
  | .loaded | .filtered | .stopped => false

structure Options where
  minUs : UInt64
  mount : Option MountFilterCfg
  deriving DecidableEq, Repr

structure Operation where
  thread : UInt64
  hook : Hook
  record : Option Start
  deriving DecidableEq, Repr

/-- Open operations stand innermost first. The first `consumed` ring entries
have been printed. -/
structure Startup where
  phase : Phase
  maps : Maps
  running : List Operation
  clock : ℕ
  consumed : ℕ

/-- Right after the load both one-slot maps read zero. -/
def Startup.loaded : Startup := ⟨.loaded, Maps.fresh 0 ⟨0, 0, 0⟩, [], 0, 0⟩

def Startup.printed (s : Startup) : List Event := s.maps.events.take s.consumed

/-- The loader does its next step or fails it, a probe fires on some thread,
or the consumer handles some of the waiting events. -/
inductive Move where
  | loader (ok : Bool)
  | probe (f : Firing)
  | poll (n : ℕ)
  deriving DecidableEq, Repr

/-- A failed step and the end of polling both lead to the cleanup. -/
def loaderStep (opts : Options) (s : Startup) : Option Startup :=
  match s.phase with
  | .loaded => some {s with
      phase := .filtered
      maps := {s.maps with mountFilterCfg := opts.mount.getD s.maps.mountFilterCfg}}
  | .filtered => some {s with phase := .attached}
  | .attached => some {s with
      phase := .configured
      maps := {s.maps with thresholdConfig := opts.minUs}}
  | .configured => some {s with phase := .polling}
  | .polling => some {s with phase := .stopped}
  | .stopped => none

/-- The open operations after a firing. An exit closes the innermost operation
of its thread; with none open, the operation began before the attach. -/
def runningAfter (s : Startup) : Firing → Option (List Operation)
  | .enter c call => some (⟨c.pidTgid, call.hook, storedStart s.maps c call⟩ :: s.running)
  | .leave c hook _ =>
      match s.running.find? fun op => op.thread = c.pidTgid with
      | none => some s.running
      | some op =>
          if op.hook = hook then some (s.running.eraseP fun op => op.thread = c.pidTgid) else none

/-- No open operation has been running for 2^32 microseconds. -/
def Startup.Short (s : Startup) (now : ℕ) : Prop :=
  ∀ op ∈ s.running, ∀ st ∈ op.record, elapsed st now < 2 ^ 32

instance (s : Startup) (now : ℕ) : Decidable (s.Short now) :=
  inferInstanceAs (Decidable (∀ op ∈ s.running, ∀ st ∈ op.record, _))

def probeStep (s : Startup) (f : Firing) : Option Startup :=
  if s.phase.probing ∧ s.clock ≤ f.context.ktime.toNat ∧ s.Short f.context.ktime.toNat then
    (runningAfter s f).map fun running =>
      {s with maps := fire s.maps f, running := running, clock := f.context.ktime.toNat}
  else none

def step (opts : Options) (s : Startup) : Move → Option Startup
  | .loader true => loaderStep opts s
  | .loader false => if s.phase = .stopped then none else some {s with phase := .stopped}
  | .probe f => probeStep s f
  | .poll n =>
      if s.phase = .polling then
        some {s with consumed := min (s.consumed + n) s.maps.events.length}
      else none

def PrintsOnlySlow (opts : Options) (events : List Event) : Prop :=
  ∀ e ∈ events, opts.minUs.toNat ≤ e.deltaUs.toNat

instance (opts : Options) (events : List Event) : Decidable (PrintsOnlySlow opts events) :=
  inferInstanceAs (Decidable (∀ e ∈ events, _))

/-- Between attach and threshold update, an exit that finds a record and room
in the ring ends an operation that has reached the threshold. -/
def WindowSlow (opts : Options) (s : Startup) : Move → Prop
  | .probe (.leave c _ _) => s.phase = .attached → c.ringRoom = true →
      ∀ st ∈ s.maps.opStart.lookup c.pidTgid, opts.minUs.toNat ≤ elapsed st c.ktime.toNat
  | _ => True

abbrev AllWindowSlow (opts : Options) : Startup → List Move → Prop :=
  Along (step opts) (WindowSlow opts)

/-- What the threshold slot reads in each phase before the cleanup. -/
def Options.slot (opts : Options) : Phase → UInt64
  | .loaded | .filtered | .attached => 0
  | .configured | .polling | .stopped => opts.minUs

structure Inv (opts : Options) (s : Startup) : Prop where
  owned : ∀ t st, s.maps.opStart.lookup t = some st →
    ∃ op ∈ s.running, op.thread = t ∧ op.record = some st
  started : ∀ op ∈ s.running, ∀ st ∈ op.record, st.ts.toNat ≤ s.clock
  slot : s.phase ≠ .stopped → s.maps.thresholdConfig = opts.slot s.phase

theorem inv_loaded (opts : Options) : Inv opts Startup.loaded where
  owned t st h := absurd h (by simp [Startup.loaded, Maps.fresh])
  started op hop := absurd hop List.not_mem_nil
  slot _ := rfl

theorem loaderStep_inv {opts : Options} {s u : Startup} (h : loaderStep opts s = some u)
    (hs : Inv opts s) : Inv opts u ∧ u.maps.events = s.maps.events := by
  have hslot := hs.slot
  unfold loaderStep at h
  cases hphase : s.phase <;> simp only [hphase, Option.some.injEq, reduceCtorEq] at h hslot
  all_goals
    subst h
    refine ⟨⟨hs.owned, hs.started, fun hrun => ?_⟩, rfl⟩
  case polling => exact absurd rfl hrun
  case attached => rfl
  all_goals exact hslot (by decide)

theorem probeStep_eq {s u : Startup} {f : Firing} (h : probeStep s f = some u) :
    s.phase.probing = true ∧ s.clock ≤ f.context.ktime.toNat ∧ s.Short f.context.ktime.toNat ∧
      ∃ running, runningAfter s f = some running ∧
        u = ⟨s.phase, fire s.maps f, running, f.context.ktime.toNat, s.consumed⟩ := by
  obtain ⟨⟨hprobing, hclock, hshort⟩, h⟩ := Option.ite_none_right_eq_some.mp h
  obtain ⟨running, hrunning, rfl⟩ := Option.map_eq_some_iff.mp h
  exact ⟨hprobing, hclock, hshort, running, hrunning, rfl⟩

theorem runningAfter_leave {s : Startup} {c : ProbeContext} {hook : Hook} {ret : UInt64}
    {running : List Operation} (h : runningAfter s (.leave c hook ret) = some running) :
    (∀ op ∈ running, op ∈ s.running) ∧
    ∀ op ∈ s.running, op.thread ≠ c.pidTgid → op ∈ running := by
  simp only [runningAfter] at h
  split at h
  · cases h
    exact ⟨fun _ hop => hop, fun _ hop _ => hop⟩
  · obtain ⟨-, h⟩ := Option.ite_none_right_eq_some.mp h
    cases h
    exact ⟨fun _ hop => List.mem_of_mem_eraseP hop,
      fun op hop hne => (List.mem_eraseP_of_neg (by simpa using hne)).mpr hop⟩

theorem probeStep_inv {opts : Options} {s u : Startup} {f : Firing} (h : probeStep s f = some u)
    (hs : Inv opts s) : Inv opts u := by
  obtain ⟨-, hclock, -, running, hrunning, rfl⟩ := probeStep_eq h
  cases f with
  | enter c call =>
      cases hrunning
      refine ⟨fun t st ht => ?_, fun op hop st hst => ?_, fun hrun => ?_⟩
      · rcases opStart_born ht with ⟨c', call', hf, rfl, hstored⟩ | hold
        · cases hf
          exact ⟨_, List.mem_cons_self, rfl, hstored⟩
        · obtain ⟨op, hop, hthread⟩ := hs.owned t st hold
          exact ⟨op, List.mem_cons_of_mem _ hop, hthread⟩
      · rcases List.mem_cons.mp hop with rfl | hop
        · rw [entryStart_ts (storedStart_some.mp hst).1]
          exact Nat.le_refl _
        · exact (hs.started op hop st hst).trans hclock
      · simpa [fire] using hs.slot hrun
  | leave c hook ret =>
      obtain ⟨hsub, hothers⟩ := runningAfter_leave hrunning
      refine ⟨fun t st ht => ?_, fun op hop st hst => ?_, fun hrun => ?_⟩
      · simp only [fire, leave_spec, HashMap.lookup_erase_eq] at ht
        split at ht
        · cases ht
        next hne =>
          obtain ⟨op, hop, rfl, hrecord⟩ := hs.owned t st ht
          exact ⟨op, hothers op hop hne, rfl, hrecord⟩
      · exact (hs.started op (hsub op hop) st hst).trans hclock
      · simpa [fire] using hs.slot hrun

theorem step_inv {opts : Options} {s u : Startup} {m : Move} (h : step opts s m = some u)
    (hs : Inv opts s) : Inv opts u := by
  cases m with
  | loader ok =>
      cases ok with
      | true => exact (loaderStep_inv h hs).1
      | false =>
          obtain ⟨-, h⟩ := Option.ite_none_left_eq_some.mp h
          cases h
          exact ⟨hs.owned, hs.started, fun hrun => absurd rfl hrun⟩
  | probe f => exact probeStep_inv h hs
  | poll n =>
      obtain ⟨-, h⟩ := Option.ite_none_right_eq_some.mp h
      cases h
      exact ⟨hs.owned, hs.started, hs.slot⟩

theorem eventOf_deltaUs {c : ProbeContext} {st : Start} {ret : Int32}
    (hstart : st.ts.toNat ≤ c.ktime.toNat) (hshort : elapsed st c.ktime.toNat < 2 ^ 32) :
    (eventOf c st ((c.ktime - st.ts) / 1000) ret).deltaUs.toNat = elapsed st c.ktime.toNat := by
  rw [eventOf, UInt64.toNat_toUInt32, elapsed_eq hstart, Nat.mod_eq_of_lt hshort]

theorem exitEvents_slow {opts : Options} {s : Startup} (hs : Inv opts s) {c : ProbeContext}
    (hook : Hook) (ret : UInt64) (hprobing : s.phase.probing = true)
    (hclock : s.clock ≤ c.ktime.toNat) (hshort : s.Short c.ktime.toNat) :
    PrintsOnlySlow opts (exitEvents s.maps c hook ret) ↔
      WindowSlow opts s (.probe (.leave c hook ret)) := by
  cases hst : s.maps.opStart.lookup c.pidTgid with
  | none => simp [exitEvents, hst, PrintsOnlySlow, WindowSlow]
  | some st =>
      obtain ⟨op, hop, -, hrecord⟩ := hs.owned _ st hst
      have hstart := (hs.started op hop st hrecord).trans hclock
      have hdelta : ∀ r, (eventOf c st ((c.ktime - st.ts) / 1000) r).deltaUs.toNat =
          elapsed st c.ktime.toNat :=
        fun r => eventOf_deltaUs hstart (hshort op hop st hrecord)
      have hslot := hs.slot fun hstop => by simp [hstop, Phase.probing] at hprobing
      simp only [exitEvents, hst, WindowSlow, Option.mem_def, Option.some.injEq, forall_eq',
        UInt64.le_iff_toNat_le, elapsed_eq hstart, hslot]
      cases hphase : s.phase
      case attached =>
        cases hroom : c.ringRoom <;> simp [Options.slot, PrintsOnlySlow, hdelta]
      case configured | polling =>
        all_goals
          refine iff_of_true (fun e he => ?_) (fun hattached => absurd hattached (by decide))
          obtain ⟨hdue, he⟩ := List.mem_ite_nil_right.mp he
          rw [List.mem_singleton.mp he, hdelta]
          exact hdue.1
      all_goals exact absurd hprobing (by simp [hphase, Phase.probing])

/-- One step keeps the ring slow exactly when it meets the condition. -/
theorem step_slow {opts : Options} {s u : Startup} {m : Move} (h : step opts s m = some u)
    (hs : Inv opts s) : PrintsOnlySlow opts u.maps.events ↔
      PrintsOnlySlow opts s.maps.events ∧ WindowSlow opts s m := by
  cases m with
  | loader ok =>
      cases ok with
      | true => simp [(loaderStep_inv h hs).2, WindowSlow]
      | false =>
          obtain ⟨-, h⟩ := Option.ite_none_left_eq_some.mp h
          cases h
          simp [WindowSlow]
  | probe f =>
      obtain ⟨hprobing, hclock, hshort, running, -, rfl⟩ := probeStep_eq h
      cases f with
      | enter c call => simp [fire, WindowSlow]
      | leave c hook ret =>
          have hadded := exitEvents_slow (c := c) hs hook ret hprobing hclock hshort
          rw [← hadded]
          simp only [fire, leave_spec, PrintsOnlySlow, List.forall_mem_append]
  | poll n =>
      obtain ⟨-, h⟩ := Option.ite_none_right_eq_some.mp h
      cases h
      simp [WindowSlow]

theorem run_slow {opts : Options} {s u : Startup} {ms : List Move}
    (h : run (step opts) s ms = some u) (hs : Inv opts s) :
    PrintsOnlySlow opts u.maps.events ↔
      PrintsOnlySlow opts s.maps.events ∧ AllWindowSlow opts s ms := by
  induction ms generalizing s with
  | nil =>
      cases h
      simp [Along]
  | cons m ms ih =>
      rw [run_cons, Option.bind_eq_some_iff] at h
      obtain ⟨s', hstep, hrest⟩ := h
      rw [ih hrest (step_inv hstep hs), step_slow hstep hs, AllWindowSlow, along_cons hstep,
        and_assoc]

/-- If no fast operation ends between the attach and the threshold update,
everything ever printed is slow; once all events are printed, that is exact. -/
theorem printed_slow {opts : Options} {ms : List Move} {s : Startup}
    (hrun : run (step opts) Startup.loaded ms = some s) :
    (AllWindowSlow opts Startup.loaded ms → PrintsOnlySlow opts s.printed) ∧
    (s.maps.events.length ≤ s.consumed →
      (PrintsOnlySlow opts s.printed ↔ AllWindowSlow opts Startup.loaded ms)) := by
  have hring : PrintsOnlySlow opts s.maps.events ↔ AllWindowSlow opts Startup.loaded ms := by
    rw [run_slow hrun (inv_loaded opts)]
    exact and_iff_right fun e he => absurd he List.not_mem_nil
  refine ⟨fun h e he => hring.mpr h e (List.mem_of_mem_take he), fun hall => ?_⟩
  rw [Startup.printed, List.take_of_length_le hall, hring]

/-- The loader's steps up to polling, with an open of 1 ms falling into the
window or an open of 20 ms after it. -/
def fastInWindow : List Move :=
  [.loader true, .loader true, .probe (.openOn (.roomy 7 0) 0x800001 "fast"),
    .probe (.leave (.roomy 7 1000000) .vfsOpen 0), .loader true, .loader true, .poll 1]

def slowAfterWindow : List Move :=
  [.loader true, .loader true, .loader true, .probe (.openOn (.roomy 7 0) 0x800001 "slow"),
    .probe (.leave (.roomy 7 20000000) .vfsOpen 0), .loader true, .poll 1]

theorem printed_slow_slowAfterWindow :
    ∃ s, run (step ⟨10000, none⟩) Startup.loaded slowAfterWindow = some s ∧
      s.printed.length = 1 ∧
      (PrintsOnlySlow ⟨10000, none⟩ s.printed ↔
        AllWindowSlow ⟨10000, none⟩ Startup.loaded slowAfterWindow) := by
  have hend : (run (step ⟨10000, none⟩) Startup.loaded slowAfterWindow).any
      (fun s => s.printed.length = 1 ∧ s.maps.events.length ≤ s.consumed) = true := by
    decide +kernel
  obtain ⟨s, hs, hrest⟩ := (Option.any_eq_true _ _).mp hend
  obtain ⟨hlength, hall⟩ := of_decide_eq_true hrest
  exact ⟨s, hs, hlength, (printed_slow hs).2 hall⟩

/-- With the default threshold of 10 ms an event of 1 ms is printed. -/
theorem printed_slow_fails_fastInWindow :
    ¬ ∀ (opts : Options) (ms : List Move) (s : Startup),
      run (step opts) Startup.loaded ms = some s → PrintsOnlySlow opts s.printed := by
  intro h
  have hend : (run (step ⟨10000, none⟩) Startup.loaded fastInWindow).any
      (fun s => ¬ PrintsOnlySlow ⟨10000, none⟩ s.printed) = true := by decide +kernel
  obtain ⟨s, hs, hrest⟩ := (Option.any_eq_true _ _).mp hend
  exact of_decide_eq_true hrest (h _ _ s hs)

end MonitoringTools.IoslowerStartup
