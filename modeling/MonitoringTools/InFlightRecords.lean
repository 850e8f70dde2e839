import MonitoringTools.IoslowerProbes
import MonitoringTools.IosnoopProbes
import MonitoringTools.Runs

/-!
# No record outlives its operation

Whatever the filter drops, the table refuses or the ring rejects, a record in
flight lies under the key of an operation still open: an entry writes under its
own key only, and every exit deletes its own key before anything can fail. Time
plays no part, and neither does who wrote the record.
-/
namespace MonitoringTools.InFlightRecords
open BpfHelpers FilesystemProbes Runs

structure OpenOp where
  thread : UInt64
  hook : Hook
  deriving DecidableEq, Repr

structure Nest (M : Type) where
  maps : M
  running : List OpenOp

def Nest.start {M : Type} (m : M) : Nest M := ⟨m, []⟩

structure Tracer (M K R : Type) [DecidableEq K] where
  enter : M → ProbeContext → Call → M
  leave : M → ProbeContext → Hook → UInt64 → M
  records : M → HashMap K R
  key : UInt64 → Hook → K
  enter_records : ∀ m (c : ProbeContext) (call : Call) k, k ∈ (records (enter m c call)).keys →
    k = key c.pidTgid call.hook ∨ k ∈ (records m).keys
  leave_records : ∀ m (c : ProbeContext) hook ret,
    records (leave m c hook ret) = (records m).erase (key c.pidTgid hook)

namespace Tracer
variable {M K R : Type} [DecidableEq K] (t : Tracer M K R)

/-- An exit belongs to the innermost operation open on its thread. -/
def step (n : Nest M) : Firing → Option (Nest M)
  | .enter c call => some ⟨t.enter n.maps c call, ⟨c.pidTgid, call.hook⟩ :: n.running⟩
  | .leave c hook ret =>
      match n.running.find? fun op => op.thread = c.pidTgid with
      | none => none
      | some op =>
          if op.hook = hook then some ⟨t.leave n.maps c hook ret, n.running.erase op⟩ else none

def keyOf (op : OpenOp) : K := t.key op.thread op.hook

/-- Every record lies under the key of an open operation. -/
def Owned (n : Nest M) : Prop := ∀ k ∈ (t.records n.maps).keys, ∃ op ∈ n.running, t.keyOf op = k

variable {t}

theorem step_leave {n u : Nest M} {c : ProbeContext} {hook : Hook} {ret : UInt64}
    (h : t.step n (.leave c hook ret) = some u) :
    u = ⟨t.leave n.maps c hook ret, n.running.erase ⟨c.pidTgid, hook⟩⟩ := by
  simp only [step] at h
  cases hfind : n.running.find? fun op => op.thread = c.pidTgid with
  | none => simp [hfind] at h
  | some op =>
      have hthread : op.thread = c.pidTgid := by simpa using List.find?_some hfind
      simp only [hfind, Option.ite_none_right_eq_some, Option.some.injEq] at h
      obtain ⟨hhook, rfl⟩ := h
      rw [← hthread, ← hhook]

theorem owned_start {m : M} (h : t.records m = ∅) : t.Owned (.start m) := by
  intro k hk
  simp [Nest.start, h] at hk

theorem owned_step {n u : Nest M} {f : Firing} (h : t.Owned n) (hstep : t.step n f = some u) :
    t.Owned u := by
  cases f with
  | enter c call =>
      cases hstep
      intro k hk
      rcases t.enter_records _ _ _ k hk with rfl | hold
      · exact ⟨_, List.mem_cons_self, rfl⟩
      · obtain ⟨op, hop, hkey⟩ := h k hold
        exact ⟨op, List.mem_cons_of_mem _ hop, hkey⟩
  | leave c hook ret =>
      obtain rfl := step_leave hstep
      intro k hk
      rw [t.leave_records, Finmap.keys_erase, Finset.mem_erase] at hk
      obtain ⟨op, hop, hkey⟩ := h k hk.2
      -- the operation that left had the deleted key, so this one is still open
      have hne : op ≠ ⟨c.pidTgid, hook⟩ := by
        rintro rfl
        exact hk.1 hkey.symm
      exact ⟨op, (List.mem_erase_of_ne hne).mpr hop, hkey⟩

theorem owned_run {m : M} {fs : List Firing} {n : Nest M} (hm : t.records m = ∅)
    (hrun : run t.step (.start m) fs = some n) : t.Owned n :=
  run_invariant (C := fun _ => True) (fun _ _ _ h _ hstep => owned_step h hstep) hrun
    (owned_start hm) fun _ _ => trivial

theorem Owned.card_le {n : Nest M} (h : t.Owned n) :
    (t.records n.maps).keys.card ≤ n.running.length := by
  have hsub : (t.records n.maps).keys ⊆ (n.running.map t.keyOf).toFinset := by
    intro k hk
    rw [List.mem_toFinset, List.mem_map]
    exact h k hk
  calc (t.records n.maps).keys.card
      ≤ (n.running.map t.keyOf).toFinset.card := Finset.card_le_card hsub
    _ ≤ (n.running.map t.keyOf).length := List.toFinset_card_le _
    _ = n.running.length := List.length_map _

theorem Owned.empty {n : Nest M} (h : t.Owned n) (hrunning : n.running = []) :
    t.records n.maps = ∅ := by
  refine Finmap.ext_lookup fun k => ?_
  rw [Finmap.lookup_empty, Finmap.lookup_eq_none, ← Finmap.mem_keys]
  intro hk
  obtain ⟨op, hop, -⟩ := h k hk
  rw [hrunning] at hop
  cases hop

end Tracer

theorem mem_keys_update {K R : Type} [DecidableEq K] {records : HashMap K R} {room : Bool} {k k' : K}
    {r : R} (h : k' ∈ (records.update room k r).keys) : k' = k ∨ k' ∈ records.keys := by
  cases room with
  | false => exact .inr h
  | true =>
      rw [HashMap.update_true, Finmap.mem_keys, Finmap.mem_insert, ← Finmap.mem_keys] at h
      exact h

def iosnoop : Tracer IosnoopProbes.Maps IosnoopProbes.OpKey IosnoopProbes.OpCtx where
  enter := IosnoopProbes.enter
  leave := IosnoopProbes.leave
  records := IosnoopProbes.Maps.opState
  key thread hook := IosnoopProbes.opKey thread (IosnoopProbes.exitType hook)
  enter_records m c call k h := by
    rw [IosnoopProbes.enter_spec] at h
    cases hs : IosnoopProbes.storedCtx m c call with
    | none => exact .inr (by simpa only [hs] using h)
    | some op => exact mem_keys_update (by simpa only [hs] using h)
  leave_records m c hook ret := by rw [IosnoopProbes.leave_spec]

def ioslower : Tracer IoslowerProbes.Maps UInt64 IoslowerProbes.Start where
  enter := IoslowerProbes.enter
  leave := IoslowerProbes.leave
  records := IoslowerProbes.Maps.opStart
  key thread _ := thread
  enter_records m c call k h := by
    rw [IoslowerProbes.enter_spec] at h
    cases hs : IoslowerProbes.storedStart m c call with
    | none => exact .inr (by simpa only [hs] using h)
    | some st => exact mem_keys_update (by simpa only [hs] using h)
  leave_records m c hook ret := by rw [IoslowerProbes.leave_spec]

/-- In every nested run of either tool, whatever the filter, the threshold and
the answers about space, the records in flight belong to open operations. -/
theorem records_belong_to_open_operations {cfg : MountFilterCfg} {threshold : UInt64}
    {fs : List Firing} :
    (∀ n, run iosnoop.step (.start (IosnoopProbes.Maps.fresh cfg)) fs = some n →
      (∀ k ∈ n.maps.opState.keys, ∃ op ∈ n.running,
        k.id = op.thread ∧ k.type = (IosnoopProbes.exitType op.hook).toUInt32) ∧
      n.maps.opState.keys.card ≤ n.running.length ∧
      (n.running = [] → n.maps.opState = ∅)) ∧
    (∀ n, run ioslower.step (.start (IoslowerProbes.Maps.fresh threshold cfg)) fs = some n →
      (∀ k ∈ n.maps.opStart.keys, ∃ op ∈ n.running, k = op.thread) ∧
      n.maps.opStart.keys.card ≤ n.running.length ∧
      (n.running = [] → n.maps.opStart = ∅)) := by
  constructor
  · intro n hrun
    have howned : iosnoop.Owned n := Tracer.owned_run rfl hrun
    refine ⟨fun k hk => ?_, howned.card_le, howned.empty⟩
    obtain ⟨op, hop, rfl⟩ := howned k hk
    exact ⟨op, hop, rfl, rfl⟩
  · intro n hrun
    have howned : ioslower.Owned n := Tracer.owned_run rfl hrun
    refine ⟨fun k hk => ?_, howned.card_le, howned.empty⟩
    obtain ⟨op, hop, rfl⟩ := howned k hk
    exact ⟨op, hop, rfl⟩

/-- An open and a readlink inside it: the table refuses the readlink and the
ring refuses the open. -/
def refused : List Firing :=
  [.openOn (.roomy 7 0) 0x800001 "upper",
    .enter {ProbeContext.roomy 7 1 with stateRoom := false}
      (.vfsReadlink (some ⟨some ⟨0x800001⟩, none⟩) 64),
    .leave (.roomy 7 2) .vfsReadlink 12,
    .leave {ProbeContext.roomy 7 3 with ringRoom := false} .vfsOpen 0]

theorem records_belong_to_open_operations_refused :
    ∃ n n', run iosnoop.step (.start (IosnoopProbes.Maps.fresh ⟨1, 8, 1⟩)) refused = some n ∧
      run ioslower.step (.start (IoslowerProbes.Maps.fresh 10 ⟨1, 8, 1⟩)) refused = some n' ∧
      n.maps.opState = ∅ ∧ n'.maps.opStart = ∅ := by
  have hsnoop : (run iosnoop.step (.start (IosnoopProbes.Maps.fresh ⟨1, 8, 1⟩)) refused).any
      (fun n => n.running = []) = true := by decide +kernel
  have hslow : (run ioslower.step (.start (IoslowerProbes.Maps.fresh 10 ⟨1, 8, 1⟩)) refused).any
      (fun n => n.running = []) = true := by decide +kernel
  obtain ⟨n, hn, hnone⟩ := (Option.any_eq_true _ _).mp hsnoop
  obtain ⟨n', hn', hnone'⟩ := (Option.any_eq_true _ _).mp hslow
  have hlaw := @records_belong_to_open_operations ⟨1, 8, 1⟩ 10 refused
  exact ⟨n, n', hn, hn', (hlaw.1 n hn).2.2 (of_decide_eq_true hnone),
    (hlaw.2 n' hn').2.2 (of_decide_eq_true hnone')⟩

end MonitoringTools.InFlightRecords
