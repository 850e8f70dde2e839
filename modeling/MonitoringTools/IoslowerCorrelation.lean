import MonitoringTools.IoslowerProbes
import MonitoringTools.NestedProbes

/-!
# Which exits of ioslower report their own entry

ioslower keys its records by thread alone. An operation opened inside another
one overwrites the outer record or, when its own entry stores nothing, takes
it at its exit. Either way the outer operation goes unreported; it is harmless
only while the outer operation is still too fast to be reported at all.
-/
namespace MonitoringTools.IoslowerCorrelation
open BpfHelpers FilesystemProbes IoslowerProbes KeyedCorrelation NestedProbes Runs

/-- Microseconds from the start of a record to a time in nanoseconds. -/
def elapsed (st : Start) (now : ℕ) : ℕ := (now - st.ts.toNat) / 1000

theorem elapsed_mono (st : Start) {m n : ℕ} (h : m ≤ n) : elapsed st m ≤ elapsed st n :=
  Nat.div_le_div_right (Nat.sub_le_sub_right h _)

theorem elapsed_eq {st : Start} {now : UInt64} (h : st.ts.toNat ≤ now.toNat) :
    ((now - st.ts) / 1000).toNat = elapsed st now.toNat := by
  rw [UInt64.toNat_div, UInt64.toNat_sub_of_le _ _ (UInt64.le_iff_toNat_le.mpr h)]
  rfl

/-- Records live under the thread; they are due once the threshold is reached. -/
def tracer (threshold : UInt64) : Tracer UInt64 Hook UInt64 Start Exit Event where
  key thread _ := thread
  key_thread h := h
  time x := x.context.ktime.toNat
  start st := st.ts.toNat
  due st now := threshold.toNat ≤ elapsed st now
  due_mono _ hle h := by
    rw [decide_eq_true_eq] at h ⊢
    exact h.trans (elapsed_mono _ hle)
  report st x := eventOf x.context st ((x.context.ktime - st.ts) / 1000) (x.hook.reportedRet x.ret)

theorem enter_store (threshold : UInt64) (m : Maps) {c : ProbeContext} (call : Call)
    (hroom : c.stateRoom = true) : (enter m c call).opStart.lookup =
      Tracer.keep m.opStart.lookup ((tracer threshold).key c.pidTgid call.hook)
        (storedStart m c call) := by
  rw [enter_spec]
  cases storedStart m c call with
  | none => rfl
  | some st =>
      simp only [hroom, HashMap.update_true, Tracer.keep]
      exact HashMap.lookup_insert_fun _ _ _

theorem leave_store (threshold : UInt64) (m : Maps) (c : ProbeContext) (hook : Hook)
    (ret : UInt64) : (leave m c hook ret).opStart.lookup =
      Function.update m.opStart.lookup ((tracer threshold).key c.pidTgid hook) none := by
  rw [leave_spec]
  exact HashMap.lookup_erase_fun _ _

theorem leave_events {threshold : UInt64} {m : Maps} {c : ProbeContext} (hook : Hook)
    (ret : UInt64) (hm : m.thresholdConfig = threshold) (hroom : c.ringRoom = true)
    (hstart : ∀ st, m.opStart.lookup c.pidTgid = some st → st.ts.toNat ≤ c.ktime.toNat) :
    (leave m c hook ret).events = m.events ++ (tracer threshold).emission
      (m.opStart.lookup ((tracer threshold).key c.pidTgid hook)) ⟨c, hook, ret⟩ := by
  rw [leave_spec]
  simp only [exitEvents, Tracer.emission, tracer, hroom, hm, and_true]
  cases hst : m.opStart.lookup c.pidTgid with
  | none => rfl
  | some st =>
      simp only [UInt64.le_iff_toNat_le, elapsed_eq (hstart st hst), decide_eq_true_eq]

def program (threshold : UInt64) : Program Maps UInt64 Start Event where
  tracer := tracer threshold
  now c := c.ktime.toNat
  enter := enter
  leave := leave
  stored := storedStart
  store m := m.opStart.lookup
  events := Maps.events
  Steady m := m.thresholdConfig = threshold
  time_eq _ := rfl
  steady_enter c call h := (enter_thresholdConfig _ c call).trans h
  steady_leave c hook ret h := (leave_thresholdConfig _ c hook ret).trans h
  stored_start h := Nat.le_of_eq
    (congrArg UInt64.toNat (entryStart_ts (storedStart_some.mp h).1))
  enter_store m _ call hroom := enter_store threshold m call hroom
  enter_events := enter_events
  leave_store := leave_store threshold
  leave_events := leave_events

/-- Every exit reported the record its own entry stored, once and with its own
return value, if the operation reached the threshold; otherwise nothing. -/
def ExitsReportOwn (threshold : UInt64) (w : World Maps Start Event) : Prop :=
  ∀ d ∈ w.ledger.done, d.reported = match d.op.record with
    | some st =>
        if threshold.toNat ≤ elapsed st d.exit.context.ktime.toNat then
          [eventOf d.exit.context st ((d.exit.context.ktime - st.ts) / 1000)
            (d.exit.hook.reportedRet d.exit.ret)]
        else []
    | none => []

/-- No operation whose entry stored a record and which has had a traced
operation opened inside it has reached the threshold. -/
def NoSlowEnclosing (threshold : UInt64) (w : World Maps Start Event) : Prop :=
  (∀ d ∈ w.ledger.done, ∀ st ∈ d.op.record, d.op.nested = true →
    elapsed st d.exit.context.ktime.toNat < threshold.toNat) ∧
  (∀ op ∈ w.ledger.running, ∀ st ∈ op.record, op.nested = true →
    elapsed st w.ledger.clock < threshold.toNat)

instance (threshold : UInt64) (w : World Maps Start Event) :
    Decidable (ExitsReportOwn threshold w) :=
  inferInstanceAs (Decidable (∀ d ∈ w.ledger.done, _))

instance (threshold : UInt64) (w : World Maps Start Event) :
    Decidable (NoSlowEnclosing threshold w) := inferInstanceAs (Decidable (_ ∧ _))

theorem exitsReportOwn_iff_exact (threshold : UInt64) (w : World Maps Start Event) :
    ExitsReportOwn threshold w ↔ (tracer threshold).Exact w.ledger := by
  refine forall₂_congr fun d _ => ?_
  cases d.op.record with
  | none => rfl
  | some st => simp only [Tracer.emission, tracer, decide_eq_true_eq]

theorem noSlowEnclosing_iff_undisturbed (threshold : UInt64) (w : World Maps Start Event) :
    NoSlowEnclosing threshold w ↔ (tracer threshold).Undisturbed w.ledger := by
  simp only [NoSlowEnclosing, Tracer.Undisturbed, tracer, decide_eq_false_iff_not, Nat.not_le]

/-- In every run with room the ring holds what the exits reported, and they
report their own entries as long as no recorded operation with another inside
it reaches the threshold; once all have returned, that condition is exact. -/
theorem slow_exits_report_own {threshold : UInt64} {cfg : MountFilterCfg} {fs : List Firing}
    {w : World Maps Start Event}
    (hrun : run (program threshold).step (World.start (Maps.fresh threshold cfg)) fs = some w)
    (hroom : ∀ f ∈ fs, f.context.Roomy) :
    w.maps.events = Program.reports w.ledger ∧
    (NoSlowEnclosing threshold w → ExitsReportOwn threshold w) ∧
    (w.ledger.running = [] → (ExitsReportOwn threshold w ↔ NoSlowEnclosing threshold w)) := by
  have hsound := (program threshold).run_sound (m := Maps.fresh threshold cfg) rfl
    Finmap.lookup_empty rfl hrun hroom
  rw [exitsReportOwn_iff_exact, noSlowEnclosing_iff_undisturbed]
  exact ⟨hsound.ring, (tracer threshold).exact_of_undisturbed hsound.reachable,
    (tracer threshold).exact_iff_undisturbed hsound.reachable⟩

/-- An open of 20 ms with a readlink of 1 ms before it on the same thread. -/
def readlinkThenOpen : List Firing :=
  [.enter (.roomy 7 0) (.vfsReadlink (some ⟨some ⟨0x800001⟩, none⟩) 64),
    .leave (.roomy 7 1000000) .vfsReadlink 12,
    .openOn (.roomy 7 2000000) 0x800001 "slow", .leave (.roomy 7 22000000) .vfsOpen 0]

theorem slow_exits_report_own_readlinkThenOpen :
    ∃ w, run (program 10000).step (World.start (Maps.fresh 10000 ⟨1, 8, 1⟩)) readlinkThenOpen =
      some w ∧ w.maps.events.length = 1 ∧ ExitsReportOwn 10000 w := by
  have hend : (run (program 10000).step (World.start (Maps.fresh 10000 ⟨1, 8, 1⟩))
      readlinkThenOpen).any (fun w => w.maps.events.length = 1 ∧ NoSlowEnclosing 10000 w) =
        true := by decide +kernel
  obtain ⟨w, hw, hrest⟩ := (Option.any_eq_true _ _).mp hend
  obtain ⟨hlength, hnested⟩ := of_decide_eq_true hrest
  exact ⟨w, hw, hlength, (slow_exits_report_own hw (by decide)).2.1 hnested⟩

/-- An open on device 8:1 inside which a stacked filesystem opens on 8:2. -/
def stackedOpen : List Firing :=
  [.openOn (.roomy 7 0) 0x800001 "upper", .openOn (.roomy 7 1000) 0x800002 "lower",
    .leave (.roomy 7 20000000) .vfsOpen 5, .leave (.roomy 7 21000000) .vfsOpen 6]

/-- Under a filter for 8:1 the inner exit takes the outer record: the outer
operation's name goes out with the inner return value and duration. -/
theorem slow_exits_report_own_fails_stackedOpen :
    ¬ ∀ (threshold : UInt64) (cfg : MountFilterCfg) (fs : List Firing) (w : World Maps Start Event),
      run (program threshold).step (World.start (Maps.fresh threshold cfg)) fs = some w →
      (∀ f ∈ fs, f.context.Roomy) → ExitsReportOwn threshold w := by
  intro h
  have hend : (run (program 10000).step (World.start (Maps.fresh 10000 ⟨1, 8, 1⟩))
      stackedOpen).any (fun w => ¬ ExitsReportOwn 10000 w) = true := by decide +kernel
  obtain ⟨w, hw, hrest⟩ := (Option.any_eq_true _ _).mp hend
  exact of_decide_eq_true hrest (h _ _ _ w hw (by decide))

end MonitoringTools.IoslowerCorrelation
