import MonitoringTools.IosnoopProbes
import MonitoringTools.NestedProbes

/-!
# Which exits of iosnoop report their own entry

iosnoop keys its records by thread and type, and every exit that finds one
reports it. An operation is safe as long as no other operation of its own type
runs inside it on its thread, whatever the mount filter made of either.
-/
namespace MonitoringTools.IosnoopCorrelation
open BpfHelpers FilesystemProbes IosnoopProbes KeyedCorrelation NestedProbes Runs

/-- Records live under thread and type; every record found is reported. -/
def tracer : Tracer UInt64 Hook OpKey OpCtx Exit Event where
  key thread hook := opKey thread (exitType hook)
  key_thread h := (opKey_inj.mp h).1
  time _ := 0
  start _ := 0
  due _ _ := true
  due_mono _ _ h := h
  report op x := eventOf x.context op (x.hook.reportedRet x.ret)

theorem enter_store (m : Maps) {c : ProbeContext} (call : Call) (hroom : c.stateRoom = true) :
    (enter m c call).opState.lookup =
      Tracer.keep m.opState.lookup (tracer.key c.pidTgid call.hook) (storedCtx m c call) := by
  rw [enter_spec]
  cases storedCtx m c call with
  | none => rfl
  | some op =>
      simp only [hroom, HashMap.update_true, Tracer.keep]
      exact HashMap.lookup_insert_fun _ _ _

theorem leave_store (m : Maps) (c : ProbeContext) (hook : Hook) (ret : UInt64) :
    (leave m c hook ret).opState.lookup =
      Function.update m.opState.lookup (tracer.key c.pidTgid hook) none := by
  rw [leave_spec]
  exact HashMap.lookup_erase_fun _ _

theorem leave_events (m : Maps) {c : ProbeContext} (hook : Hook) (ret : UInt64)
    (hroom : c.ringRoom = true) : (leave m c hook ret).events = m.events ++
      tracer.emission (m.opState.lookup (tracer.key c.pidTgid hook)) ⟨c, hook, ret⟩ := by
  rw [leave_spec]
  simp only [exitEvents, Tracer.emission, tracer, hroom, if_true]
  cases m.opState.lookup (opKey c.pidTgid (exitType hook)) <;> rfl

/-- iosnoop never looks at the time an operation took. -/
def program : Program Maps OpKey OpCtx Event where
  tracer := tracer
  now _ := 0
  enter := enter
  leave := leave
  stored := storedCtx
  store m := m.opState.lookup
  events := Maps.events
  Steady _ := True
  time_eq _ := rfl
  steady_enter _ _ h := h
  steady_leave _ _ _ h := h
  stored_start _ := Nat.le_refl 0
  enter_store m _ call hroom := enter_store m call hroom
  enter_events := enter_events
  leave_store := leave_store
  leave_events hook ret _ hroom _ := leave_events _ hook ret hroom

/-- Every exit reported exactly the record its own entry stored, once, with
its own return value, and nothing when that entry stored none. -/
def ExitsReportOwn (w : World Maps OpCtx Event) : Prop :=
  ∀ d ∈ w.ledger.done, d.reported = match d.op.record with
    | some op => [eventOf d.exit.context op (d.exit.hook.reportedRet d.exit.ret)]
    | none => []

/-- No operation whose entry stored a record has had another operation of its
own type opened inside it on its thread. -/
def NoSameTypeNested (w : World Maps OpCtx Event) : Prop :=
  (∀ d ∈ w.ledger.done, d.op.record.isSome = true → d.op.nested = false) ∧
  (∀ op ∈ w.ledger.running, op.record.isSome = true → op.nested = false)

instance (w : World Maps OpCtx Event) : Decidable (ExitsReportOwn w) :=
  inferInstanceAs (Decidable (∀ d ∈ w.ledger.done, _))

instance (w : World Maps OpCtx Event) : Decidable (NoSameTypeNested w) :=
  inferInstanceAs (Decidable (_ ∧ _))

theorem exitsReportOwn_iff_exact (w : World Maps OpCtx Event) :
    ExitsReportOwn w ↔ tracer.Exact w.ledger := by
  refine forall₂_congr fun d _ => ?_
  cases d.op.record <;> rfl

theorem noSameTypeNested_iff_undisturbed (w : World Maps OpCtx Event) :
    NoSameTypeNested w ↔ tracer.Undisturbed w.ledger := by
  have hop : ∀ op : Op UInt64 Hook OpCtx, (op.record.isSome = true → op.nested = false) ↔
      ∀ r ∈ op.record, op.nested = true → True = False := by
    intro op
    cases op.record <;> simp
  simp only [NoSameTypeNested, hop, Tracer.Undisturbed, tracer]
  simp

/-- In every run with room the ring holds what the exits reported, and they
report their own entries as long as no recorded operation contains another of
its type; once all operations have returned, that condition is exact. -/
theorem exits_report_own {cfg : MountFilterCfg} {fs : List Firing} {w : World Maps OpCtx Event}
    (hrun : run program.step (World.start (Maps.fresh cfg)) fs = some w)
    (hroom : ∀ f ∈ fs, f.context.Roomy) :
    w.maps.events = Program.reports w.ledger ∧ (NoSameTypeNested w → ExitsReportOwn w) ∧
    (w.ledger.running = [] → (ExitsReportOwn w ↔ NoSameTypeNested w)) := by
  have hsound := program.run_sound (m := Maps.fresh cfg) trivial Finmap.lookup_empty rfl hrun hroom
  rw [exitsReportOwn_iff_exact, noSameTypeNested_iff_undisturbed]
  exact ⟨hsound.ring, tracer.exact_of_undisturbed hsound.reachable,
    tracer.exact_iff_undisturbed hsound.reachable⟩

/-- An open on device 8:1 inside which a stacked filesystem opens on 8:2. -/
def stackedOpen : List Firing :=
  [.openOn (.roomy 7 0) 0x800001 "upper", .openOn (.roomy 7 0) 0x800002 "lower",
    .leave (.roomy 7 1) .vfsOpen 5, .leave (.roomy 7 2) .vfsOpen 6]

/-- An open with a readlink inside, both on the filtered device. -/
def readlinkInOpen : List Firing :=
  [.openOn (.roomy 7 0) 0x800001 "upper",
    .enter (.roomy 7 1) (.vfsReadlink (some ⟨some ⟨0x800001⟩, none⟩) 64),
    .leave (.roomy 7 2) .vfsReadlink 12, .leave (.roomy 7 3) .vfsOpen 0]

theorem exits_report_own_readlinkInOpen :
    ∃ w, run program.step (World.start (Maps.fresh ⟨1, 8, 1⟩)) readlinkInOpen = some w ∧
      w.maps.events.length = 2 ∧ ExitsReportOwn w := by
  have hend : (run program.step (World.start (Maps.fresh ⟨1, 8, 1⟩)) readlinkInOpen).any
      (fun w => w.maps.events.length = 2 ∧ NoSameTypeNested w) = true := by decide +kernel
  obtain ⟨w, hw, hrest⟩ := (Option.any_eq_true _ _).mp hend
  obtain ⟨hlength, hnested⟩ := of_decide_eq_true hrest
  exact ⟨w, hw, hlength, (exits_report_own hw (by decide)).2.1 hnested⟩

/-- Under a filter for 8:1 the inner exit takes the outer record: the outer
operation's name goes out with the inner return value. -/
theorem exits_report_own_fails_stackedOpen :
    ¬ ∀ (cfg : MountFilterCfg) (fs : List Firing) (w : World Maps OpCtx Event),
      run program.step (World.start (Maps.fresh cfg)) fs = some w → (∀ f ∈ fs, f.context.Roomy) →
      ExitsReportOwn w := by
  intro h
  have hend : (run program.step (World.start (Maps.fresh ⟨1, 8, 1⟩)) stackedOpen).any
      (fun w => ¬ ExitsReportOwn w) = true := by decide +kernel
  obtain ⟨w, hw, hrest⟩ := (Option.any_eq_true _ _).mp hend
  exact of_decide_eq_true hrest (h _ _ w hw (by decide))

end MonitoringTools.IosnoopCorrelation
