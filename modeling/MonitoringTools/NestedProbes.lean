import MonitoringTools.FilesystemProbes
import MonitoringTools.KeyedCorrelation
import MonitoringTools.Runs

/-!
# Properly nested probe firings over a tracing program

A world is a program's maps beside a ledger of the operations open on each
thread. Probes fire in any order across threads; on one thread an exit probe
belongs to the innermost open operation. What an exit reported is read off
the ring, never assumed. Any program that obeys a few laws about its own
operation table simulates the keyed record store of the general development.
-/
namespace MonitoringTools.NestedProbes
open BpfHelpers FilesystemProbes KeyedCorrelation Runs

structure Exit where
  context : ProbeContext
  hook : Hook
  ret : UInt64
  deriving DecidableEq, Repr

/-- A tracing program with maps `M`, and the laws of its handlers while the
part of its maps that `Steady` speaks about is left alone. -/
structure Program (M K R E : Type) [DecidableEq K] where
  tracer : Tracer UInt64 Hook K R Exit E
  now : ProbeContext → ℕ
  enter : M → ProbeContext → Call → M
  leave : M → ProbeContext → Hook → UInt64 → M
  stored : M → ProbeContext → Call → Option R
  store : M → K → Option R
  events : M → List E
  Steady : M → Prop
  time_eq : ∀ x, tracer.time x = now x.context
  steady_enter : ∀ {m} c call, Steady m → Steady (enter m c call)
  steady_leave : ∀ {m} c hook ret, Steady m → Steady (leave m c hook ret)
  stored_start : ∀ {m c call r}, stored m c call = some r → tracer.start r ≤ now c
  enter_store : ∀ m {c : ProbeContext} call, c.stateRoom = true → store (enter m c call) =
    Tracer.keep (store m) (tracer.key c.pidTgid call.hook) (stored m c call)
  enter_events : ∀ m c call, events (enter m c call) = events m
  leave_store : ∀ m c hook ret, store (leave m c hook ret) =
    Function.update (store m) (tracer.key c.pidTgid hook) none
  leave_events : ∀ {m} {c : ProbeContext} hook ret, Steady m → c.ringRoom = true →
    (∀ r, store m (tracer.key c.pidTgid hook) = some r → tracer.start r ≤ now c) →
    events (leave m c hook ret) = events m ++
      tracer.emission (store m (tracer.key c.pidTgid hook)) ⟨c, hook, ret⟩

structure World (M R E : Type) where
  maps : M
  ledger : Ledger UInt64 Hook R Exit E

/-- Nothing open, nothing closed. -/
def World.start {M R E : Type} (m : M) : World M R E := ⟨m, Ledger.empty⟩

namespace Program
variable {M K R E : Type} [DecidableEq K] (P : Program M K R E)

/-- Time does not run backwards, and an exit closes the innermost operation of
its thread. The new ring entries of an exit are what it reported. -/
def step (w : World M R E) (f : Firing) : Option (World M R E) :=
  if w.ledger.clock ≤ P.now f.context then
    match f with
    | .enter c call =>
        some ⟨P.enter w.maps c call,
          P.tracer.enterLedger w.ledger c.pidTgid call.hook (P.stored w.maps c call) (P.now c)⟩
    | .leave c hook ret =>
        match w.ledger.innermost c.pidTgid with
        | none => none
        | some op =>
            if op.label = hook then
              let m := P.leave w.maps c hook ret
              some ⟨m, P.tracer.leaveLedger w.ledger op ⟨c, hook, ret⟩
                ((P.events m).drop (P.events w.maps).length)⟩
            else none
  else none

def abstract (w : World M R E) : State UInt64 Hook K R Exit E := ⟨P.store w.maps, w.ledger⟩

/-- Everything the exits reported, in the order they fired. -/
def reports (l : Ledger UInt64 Hook R Exit E) : List E :=
  (l.done.reverse.map Done.reported).flatten

theorem reports_leave (l : Ledger UInt64 Hook R Exit E) (op : Op UInt64 Hook R) (x : Exit)
    (reported : List E) :
    reports (P.tracer.leaveLedger l op x reported) = reports l ++ reported := by
  simp [reports, Tracer.leaveLedger]

/-- What a run keeps: the abstract state is reachable, the configuration is
untouched and the ring holds just what the exits reported. -/
structure Sound (w : World M R E) : Prop where
  reachable : P.tracer.Reachable (P.abstract w)
  steady : P.Steady w.maps
  ring : P.events w.maps = reports w.ledger

theorem step_enter {w u : World M R E} {c : ProbeContext} {call : Call} :
    P.step w (.enter c call) = some u ↔ w.ledger.clock ≤ P.now c ∧
      u = ⟨P.enter w.maps c call,
        P.tracer.enterLedger w.ledger c.pidTgid call.hook (P.stored w.maps c call) (P.now c)⟩ := by
  rw [step, Option.ite_none_right_eq_some, Option.some.injEq, eq_comm (b := u)]
  rfl

theorem step_leave {w u : World M R E} {c : ProbeContext} {hook : Hook} {ret : UInt64} :
    P.step w (.leave c hook ret) = some u ↔ w.ledger.clock ≤ P.now c ∧
      ∃ op, w.ledger.innermost c.pidTgid = some op ∧ op.label = hook ∧
        u = ⟨P.leave w.maps c hook ret, P.tracer.leaveLedger w.ledger op ⟨c, hook, ret⟩
          ((P.events (P.leave w.maps c hook ret)).drop (P.events w.maps).length)⟩ := by
  rw [step, Option.ite_none_right_eq_some]
  refine and_congr_right fun _ => ?_
  cases w.ledger.innermost c.pidTgid with
  | none => simp
  | some op => simp [Option.ite_none_right_eq_some, eq_comm (a := u)]

theorem step_enter_sound {w u : World M R E} {c : ProbeContext} {call : Call}
    (h : P.step w (.enter c call) = some u) (hroom : c.Roomy) (hw : P.Sound w) : P.Sound u := by
  obtain ⟨hclock, rfl⟩ := P.step_enter.mp h
  refine ⟨hw.reachable.tail ?_, P.steady_enter c call hw.steady, ?_⟩
  · simp only [abstract, P.enter_store _ _ hroom.1]
    exact .enter hclock fun r hr => P.stored_start hr
  · exact (P.enter_events _ _ _).trans hw.ring

theorem step_leave_sound {w u : World M R E} {c : ProbeContext} {hook : Hook} {ret : UInt64}
    (h : P.step w (.leave c hook ret) = some u) (hroom : c.Roomy) (hw : P.Sound w) :
    P.Sound u := by
  obtain ⟨hclock, op, hop, hlabel, rfl⟩ := P.step_leave.mp h
  obtain ⟨hthread, -⟩ := Tracer.innermost_split hop
  have hkey : P.tracer.keyOf op = P.tracer.key c.pidTgid hook := by
    rw [Tracer.keyOf, hthread, hlabel]
  -- whatever the exit finds was stored by an operation still open, hence earlier
  have hstart : ∀ r, P.store w.maps (P.tracer.key c.pidTgid hook) = some r →
      P.tracer.start r ≤ P.now c := by
    intro r hr
    have hinv := Tracer.Reachable.inv P.tracer hw.reachable
    obtain ⟨p, hp, -, hpr⟩ := hinv.owned _ r hr
    exact Nat.le_trans (hinv.started p hp r hpr) hclock
  have hevents := P.leave_events hook ret hw.steady hroom.2 hstart
  have hreported : (P.events (P.leave w.maps c hook ret)).drop (P.events w.maps).length =
      P.tracer.emission (P.store w.maps (P.tracer.keyOf op)) ⟨c, hook, ret⟩ := by
    rw [hevents, hkey, List.drop_left]
  refine ⟨hw.reachable.tail ?_, P.steady_leave c hook ret hw.steady, ?_⟩
  · simp only [abstract, P.leave_store, hreported, ← hkey]
    exact .leave (by rwa [P.time_eq]) hop
  · rw [reports_leave, ← hw.ring, hreported, hkey, hevents]

theorem run_sound {m : M} {fs : List Firing} {w : World M R E} (hm : P.Steady m)
    (hstore : ∀ k, P.store m k = none) (hevents : P.events m = [])
    (hrun : run P.step (World.start m) fs = some w) (hroom : ∀ f ∈ fs, f.context.Roomy) :
    P.Sound w := by
  have hstart : P.Sound (World.start m) := by
    refine ⟨?_, hm, hevents⟩
    have : P.abstract (World.start m) = ⟨fun _ => none, Ledger.empty⟩ := by
      simp only [abstract, World.start, State.mk.injEq, and_true]
      exact funext hstore
    rw [this]
    exact .refl
  refine run_invariant (P := P.Sound) (C := fun f => f.context.Roomy) ?_ hrun hstart hroom
  intro w f u hw hf hstep
  cases f with
  | enter c call => exact P.step_enter_sound hstep hf hw
  | leave c hook ret => exact P.step_leave_sound hstep hf hw

end Program
end MonitoringTools.NestedProbes
