import MonitoringTools.SlowCommands

/-!
# Latencies of requests known by a pointer

nfsslower knows a request by its RPC task, smbslower in function-probe mode by
its `mid_q_entry`. A pointer may be started many times before it ends: the
first start whose command is not denied counts, and the end takes its record
whatever becomes of the event.
-/
namespace MonitoringTools.RequestLatency
open BpfHelpers DiagEvents SlowCommands

/-- A slow tracer with the requests it knows by a pointer. A firing has one
answer about space: in the table for a start, in the ring for an end. -/
structure PointerTracer extends SlowTracer where
  pointerKey : UInt64 → Key
  time : Firing → UInt64
  room : Firing → Bool
  submissions : Maps → List Submission
  minLatNs : UInt64
  startNs : Record → UInt64
  /-- The event of an end firing that takes a record. -/
  event : Firing → Record → Event
  requestId : Firing → Record → UInt64
  event_command : ∀ f record, (event f record).command = command record
  event_metric : ∀ f record, (event f record).metric = .latencyNs (time f - startNs record)
  event_rqstId : ∀ f record, (event f record).rqstId = requestId f record
  start_pointer : ∀ {f overwrite hasRoom ptr record},
    op f = some (.start overwrite hasRoom (pointerKey ptr) record) →
      overwrite = false ∧ hasRoom = room f ∧ startNs record = time f
  submissions_end : ∀ (m : Maps) {f : Firing} {ptr : UInt64},
    op f = some (.finish (pointerKey ptr)) → room f = true →
      (submissions (fire m f)).map Submission.event = (submissions m).map Submission.event ++
        ((table m (pointerKey ptr)).bind fun record =>
          if minLatNs ≤ time f - startNs record then some (event f record) else none).toList

/-- What the clock and the helpers answer during a firing of smbslower. -/
def smbContext : SmbFiring → DiagContext
  | .tracepoint (.enter c _ _) | .tracepoint (.done c _ _) | .tracepoint (.err c _ _)
  | .midAllocFexit c _ _ | .midAllocKretprobe c _ _ | .midAllocRhel810Kretprobe c _ _
  | .midAllocRhel810553134Kretprobe c _ _ | .midRelease c _ _ => c

def smbRoom : SmbFiring → Bool
  | .tracepoint (.enter _ room _) | .midAllocFexit _ room _ | .midAllocKretprobe _ room _
  | .midAllocRhel810Kretprobe _ room _ | .midAllocRhel810553134Kretprobe _ room _ => room
  | .tracepoint (.done _ ring _) | .tracepoint (.err _ ring _) | .midRelease _ ring _ => ring.room

namespace PointerTracer
variable (t : PointerTracer)

/-- A firing of an end program on a pointer. -/
def Ends (f : t.Firing) (ptr : UInt64) : Prop := t.op f = some (.finish (t.pointerKey ptr))

/-- The records of the starts on a pointer since its previous end, oldest first. -/
def startsSinceEnd (fs : List t.Firing) (ptr : UInt64) : List t.Record :=
  (RequestTable.started (t.pointerKey ptr) (fs.filterMap t.op).reverse).reverse

/-- The first of them whose command is not denied. -/
def firstStart (list : HashMap UInt16 UInt8) (fs : List t.Firing) (ptr : UInt64) :
    Option t.Record :=
  (t.startsSinceEnd fs ptr).find? fun r => (list.lookup (t.command r)).isNone

/-- The events of a run, oldest first. -/
def events (list : HashMap UInt16 UInt8) (fs : List t.Firing) : List Event :=
  (t.submissions (t.reached list fs)).map Submission.event

/-- A firing comes at least the minimum latency after the start of a record. -/
def Due (f : t.Firing) (r : t.Record) : Prop :=
  t.minLatNs.toNat ≤ (t.time f).toNat - (t.startNs r).toNat

/-- An event of a firing tells the command, the request and the latency of a record. -/
def Tells (f : t.Firing) (r : t.Record) (e : Event) : Prop :=
  e.command = t.command r ∧ e.rqstId = t.requestId f r ∧
    ∃ latency, e.metric = .latencyNs latency ∧
      latency.toNat = (t.time f).toNat - (t.startNs r).toNat

/-- Every firing finds room, and the clock does not run backwards. -/
def Orderly (fs : List t.Firing) : Prop :=
  (∀ f ∈ fs, t.room f = true) ∧ fs.Pairwise fun f g => t.time f ≤ t.time g

variable {t}

/-- With room, the table holds the first start that was not denied. -/
theorem table_firstStart {list : HashMap UInt16 UInt8} {fs : List t.Firing}
    (hroom : ∀ f ∈ fs, t.room f = true) (ptr : UInt64) :
    t.table (t.reached list fs) (t.pointerKey ptr) = t.firstStart list fs ptr := by
  rw [SlowTracer.table_reached]
  refine RequestTable.run_first fun op hop hkey => ?_
  obtain ⟨f, hf, hfop⟩ := List.mem_filterMap.mp hop
  cases op with
  | start overwrite hasRoom key record =>
      simp only [RequestTable.Op.key] at hkey
      subst hkey
      obtain ⟨hoverwrite, hasRoom_eq, -⟩ := t.start_pointer hfop
      exact ⟨hoverwrite, hasRoom_eq.trans (hroom f hf)⟩
  | finish key => trivial

theorem startsSinceEnd_time {fs : List t.Firing} {ptr : UInt64} {r : t.Record}
    (h : r ∈ t.startsSinceEnd fs ptr) : ∃ f ∈ fs, t.startNs r = t.time f := by
  obtain ⟨overwrite, hasRoom, hmem⟩ :=
    RequestTable.start_of_mem_started (List.mem_reverse.mp h)
  obtain ⟨f, hf, hop⟩ := List.mem_filterMap.mp (List.mem_reverse.mp hmem)
  exact ⟨f, hf, (t.start_pointer hop).2.2⟩

theorem table_after_end {list : HashMap UInt16 UInt8} {fs : List t.Firing} {f : t.Firing}
    {ptr : UInt64} (hend : t.Ends f ptr) :
    t.table (t.reached list (fs ++ [f])) (t.pointerKey ptr) = none := by
  rw [SlowTracer.table_reached, List.filterMap_append, List.filterMap_cons_some hend,
    List.filterMap_nil, RequestTable.run_concat]
  exact RequestTable.step_finish_self _ _

theorem firstStart_le {list : HashMap UInt16 UInt8} {fs : List t.Firing} {f : t.Firing}
    {ptr : UInt64} {record : t.Record} (htimes : (fs ++ [f]).Pairwise fun g h => t.time g ≤ t.time h)
    (hfirst : t.firstStart list fs ptr = some record) : t.startNs record ≤ t.time f := by
  obtain ⟨g, hg, hstart⟩ := startsSinceEnd_time (List.mem_of_find?_eq_some hfirst)
  rw [hstart]
  exact (List.pairwise_append.mp htimes).2.2 g hg f List.mem_cons_self

theorem due_iff {f : t.Firing} {r : t.Record} (h : t.startNs r ≤ t.time f) :
    t.Due f r ↔ t.minLatNs ≤ t.time f - t.startNs r := by
  rw [UInt64.le_iff_toNat_le, UInt64.toNat_sub_of_le _ _ h, Due]

theorem tells_event {f : t.Firing} {r : t.Record} (h : t.startNs r ≤ t.time f) :
    t.Tells f r (t.event f r) :=
  ⟨t.event_command f r, t.event_rqstId f r, _, t.event_metric f r, UInt64.toNat_sub_of_le _ _ h⟩

theorem events_after_end {list : HashMap UInt16 UInt8} {fs : List t.Firing} {f : t.Firing}
    {ptr : UInt64} (hend : t.Ends f ptr) (hroom : ∀ g ∈ fs ++ [f], t.room g = true) :
    t.events list (fs ++ [f]) = t.events list fs ++
      ((t.firstStart list fs ptr).bind fun record =>
        if t.minLatNs ≤ t.time f - t.startNs record then some (t.event f record)
        else none).toList := by
  have hbefore : ∀ g ∈ fs, t.room g = true := fun g hg => hroom g (List.mem_append_left _ hg)
  have hlast : t.room f = true := hroom f (List.mem_append_right _ List.mem_cons_self)
  have hreached : t.reached list (fs ++ [f]) = t.fire (t.reached list fs) f := List.foldl_concat ..
  rw [events, events, ← table_firstStart hbefore ptr, hreached]
  exact t.submissions_end _ hend hlast

end PointerTracer

theorem smb_start_pointer {f : SmbFiring} {overwrite hasRoom : Bool} {ptr : UInt64}
    {record : SmbslowerProbes.SmbPartialEvent}
    (h : f.op = some (.start overwrite hasRoom (.inr ptr) record)) :
    overwrite = false ∧ hasRoom = smbRoom f ∧ record.startNs = (smbContext f).ktime := by
  cases f with
  | tracepoint f => cases f <;> simp [SmbFiring.op] at h
  | midAllocFexit c room mid =>
      simp only [SmbFiring.op, allocOp, Option.some.injEq, RequestTable.Op.start.injEq] at h
      obtain ⟨rfl, rfl, -, rfl⟩ := h
      exact ⟨rfl, rfl, rfl⟩
  | midAllocKretprobe c room mid | midAllocRhel810Kretprobe c room mid
  | midAllocRhel810553134Kretprobe c room mid =>
      simp only [SmbFiring.op, Option.map_eq_some_iff] at h
      obtain ⟨mid, rfl, h⟩ := h
      simp only [allocOp, RequestTable.Op.start.injEq] at h
      obtain ⟨rfl, rfl, -, rfl⟩ := h
      exact ⟨rfl, rfl, rfl⟩
  | midRelease c ring addr => simp [SmbFiring.op] at h

theorem smb_end {f : SmbFiring} {ptr : UInt64} (h : f.op = some (.finish (.inr ptr))) :
    ∃ c ring, f = .midRelease c ring ptr := by
  cases f with
  | tracepoint f => cases f <;> simp [SmbFiring.op] at h
  | midAllocFexit c room mid => simp [SmbFiring.op, allocOp] at h
  | midAllocKretprobe c room mid | midAllocRhel810Kretprobe c room mid
  | midAllocRhel810553134Kretprobe c room mid =>
      cases mid <;> simp [SmbFiring.op, allocOp] at h
  | midRelease c ring addr =>
      obtain rfl : addr = ptr := by simpa [SmbFiring.op] using h
      exact ⟨c, ring, rfl⟩

theorem smb_submissions_end {ro : SmbslowerProbes.Rodata} (m : SmbslowerProbes.Maps)
    {c : DiagContext} {ring : Fill} (ptr : UInt64) (hroom : ring.room = true) :
    (SmbslowerProbes.probeExit ro m c ring ptr).submissions.map Submission.event =
      m.submissions.map Submission.event ++ ((m.temp.lookup ptr).bind fun record =>
        if ro.minLatNs ≤ c.ktime - record.startNs then some (SmbslowerProbes.eventOf c record)
        else none).toList := by
  unfold SmbslowerProbes.probeExit
  cases m.temp.lookup ptr with
  | none => simp
  | some record =>
      simp only [List.map_append, Option.bind_some, ← SmbslowerProbes.completion_event hroom]
      cases SmbslowerProbes.completion ro c ring record <;> rfl

/-- smbslower in function-probe mode; tracepoint firings touch no pointer. -/
def smbPointer (ro : SmbslowerProbes.Rodata) : PointerTracer where
  toSlowTracer := SlowCommands.smbslower ro
  pointerKey := Sum.inr
  time f := (smbContext f).ktime
  room := smbRoom
  submissions := SmbslowerProbes.Maps.submissions
  minLatNs := ro.minLatNs
  startNs := SmbslowerProbes.SmbPartialEvent.startNs
  event f r := SmbslowerProbes.eventOf (smbContext f) r
  requestId _ r := r.mid
  event_command _ _ := rfl
  event_metric _ _ := rfl
  event_rqstId _ _ := rfl
  start_pointer := smb_start_pointer
  submissions_end m f ptr hend hroom := by
    obtain ⟨c, ring, rfl⟩ := smb_end hend
    exact smb_submissions_end m ptr hroom

def nfsContext : NfsslowerProbes.Firing → DiagContext
  | .nfs4SetupSequence c _ _ | .rpcExitTask c _ _ => c

def nfsRoom : NfsslowerProbes.Firing → Bool
  | .nfs4SetupSequence _ room _ => room
  | .rpcExitTask _ ring _ => ring.room

def nfsTask : NfsslowerProbes.Firing → NfsslowerProbes.RpcTask
  | .nfs4SetupSequence _ _ task | .rpcExitTask _ _ task => task

theorem nfs_start_pointer {f : NfsslowerProbes.Firing} {overwrite hasRoom : Bool} {ptr : UInt64}
    {record : NfsslowerProbes.NfsPartialEvent}
    (h : nfsOp f = some (.start overwrite hasRoom ptr record)) :
    overwrite = false ∧ hasRoom = nfsRoom f ∧ record.startNs = (nfsContext f).ktime := by
  cases f with
  | nfs4SetupSequence c room task =>
      simp only [nfsOp, Option.some.injEq, RequestTable.Op.start.injEq] at h
      obtain ⟨rfl, rfl, -, rfl⟩ := h
      exact ⟨rfl, rfl, rfl⟩
  | rpcExitTask c ring task => simp [nfsOp] at h

theorem nfs_end {f : NfsslowerProbes.Firing} {ptr : UInt64} (h : nfsOp f = some (.finish ptr)) :
    ∃ c ring task, f = .rpcExitTask c ring task ∧ task.addr = ptr := by
  cases f with
  | nfs4SetupSequence c room task => simp [nfsOp] at h
  | rpcExitTask c ring task => exact ⟨c, ring, task, rfl, by simpa [nfsOp] using h⟩

theorem nfs_submissions_end {ro : NfsslowerProbes.Rodata} (m : NfsslowerProbes.Maps)
    {c : DiagContext} {ring : Fill} (task : NfsslowerProbes.RpcTask) (hroom : ring.room = true) :
    (NfsslowerProbes.probeExit ro m c ring task).submissions.map Submission.event =
      m.submissions.map Submission.event ++ ((m.temp.lookup task.addr).bind fun record =>
        if ro.minLatNs ≤ c.ktime - record.startNs then some (NfsslowerProbes.eventOf c task record)
        else none).toList := by
  unfold NfsslowerProbes.probeExit
  cases m.temp.lookup task.addr with
  | none => simp
  | some record =>
      simp only [List.map_append, Option.bind_some, ← NfsslowerProbes.completion_event hroom]
      cases NfsslowerProbes.completion ro c ring task record <;> rfl

def nfsPointer (ro : NfsslowerProbes.Rodata) : PointerTracer where
  toSlowTracer := SlowCommands.nfsslower ro
  pointerKey ptr := ptr
  time f := (nfsContext f).ktime
  room := nfsRoom
  submissions := NfsslowerProbes.Maps.submissions
  minLatNs := ro.minLatNs
  startNs := NfsslowerProbes.NfsPartialEvent.startNs
  event f r := NfsslowerProbes.eventOf (nfsContext f) (nfsTask f) r
  requestId f _ := (ntohl (nfsTask f).rqXid).toUInt64
  event_command _ _ := rfl
  event_metric _ _ := rfl
  event_rqstId _ _ := rfl
  start_pointer := nfs_start_pointer
  submissions_end m f ptr hend hroom := by
    obtain ⟨c, ring, task, rfl, rfl⟩ := nfs_end hend
    exact nfs_submissions_end m task hroom

def pointerTracer : Tool → PointerTracer
  | .smbslower ro => smbPointer ro
  | .nfsslower ro => nfsPointer ro

/-- After an end on a pointer nothing is left under it. In an orderly run the
end adds one event exactly when the first start since the previous end is due,
the event tells of that start, and otherwise the end adds nothing. -/
theorem end_reports_first_start {tool : Tool} {list : HashMap UInt16 UInt8}
    {fs : List (pointerTracer tool).Firing} {f : (pointerTracer tool).Firing} {ptr : UInt64}
    (hend : (pointerTracer tool).Ends f ptr) :
    let t := pointerTracer tool
    t.table (t.reached list (fs ++ [f])) (t.pointerKey ptr) = none ∧
    (t.Orderly (fs ++ [f]) →
      ((∃ e, t.events list (fs ++ [f]) = t.events list fs ++ [e]) ↔
        ∃ r, t.firstStart list fs ptr = some r ∧ t.Due f r) ∧
      (∀ e, t.events list (fs ++ [f]) = t.events list fs ++ [e] →
        ∃ r, t.firstStart list fs ptr = some r ∧ t.Tells f r e) ∧
      ((¬ ∃ r, t.firstStart list fs ptr = some r ∧ t.Due f r) →
        t.events list (fs ++ [f]) = t.events list fs)) := by
  intro t
  refine ⟨PointerTracer.table_after_end hend, fun horderly => ?_⟩
  have hevents : t.events list (fs ++ [f]) = t.events list fs ++ _ :=
    PointerTracer.events_after_end hend horderly.1
  cases hfirst : t.firstStart list fs ptr with
  | none =>
      have hsame : t.events list (fs ++ [f]) = t.events list fs := by
        rw [hevents, hfirst]
        exact List.append_nil _
      simp [hsame]
  | some r =>
      have hle := PointerTracer.firstStart_le horderly.2 hfirst
      by_cases hdue : t.Due f r
      · have hone : t.events list (fs ++ [f]) = t.events list fs ++ [t.event f r] := by
          rw [hevents, hfirst, Option.bind_some, if_pos ((PointerTracer.due_iff hle).mp hdue)]
          rfl
        refine ⟨iff_of_true ⟨_, hone⟩ ⟨r, rfl, hdue⟩, fun e he => ⟨r, rfl, ?_⟩,
          fun hnot => absurd ⟨r, rfl, hdue⟩ hnot⟩
        obtain rfl : e = t.event f r := by
          rw [hone] at he
          simpa using (List.append_cancel_left he).symm
        exact PointerTracer.tells_event hle
      · have hsame : t.events list (fs ++ [f]) = t.events list fs := by
          rw [hevents, hfirst, Option.bind_some,
            if_neg (mt (PointerTracer.due_iff hle).mpr hdue)]
          exact List.append_nil _
        simp [hsame, hdue]

/-- An RPC task that asks for a slot twice. -/
def resent : List NfsslowerProbes.Firing :=
  [.nfs4SetupSequence ⟨7, Buffer.zero 16, 1000⟩ true ⟨64, 4, 1⟩,
    .nfs4SetupSequence ⟨7, Buffer.zero 16, 1500⟩ true ⟨64, 5, 1⟩]

def resentExit : NfsslowerProbes.Firing :=
  .rpcExitTask ⟨7, Buffer.zero 16, 5000⟩ ⟨true, 0, 0⟩ ⟨64, 5, 1⟩

/-- Ended 4 microseconds after it first asked, it is reported from then on. -/
theorem end_reports_first_start_resent :
    let t := pointerTracer (.nfsslower ⟨3900, 0⟩)
    ∃ e, t.events ∅ (resent ++ [resentExit]) = t.events ∅ resent ++ [e] ∧
      t.Tells resentExit (⟨4, 1000⟩ : NfsslowerProbes.NfsPartialEvent) e := by
  intro t
  have hend : t.Ends resentExit 64 := rfl
  have horderly : t.Orderly (resent ++ [resentExit]) :=
    (by decide : (∀ f ∈ resent ++ [resentExit], nfsRoom f = true) ∧
      (resent ++ [resentExit]).Pairwise fun f g => (nfsContext f).ktime ≤ (nfsContext g).ktime)
  have hfirst : t.firstStart ∅ resent 64 = some (⟨4, 1000⟩ : NfsslowerProbes.NfsPartialEvent) :=
    rfl
  have hdue : t.Due resentExit (⟨4, 1000⟩ : NfsslowerProbes.NfsPartialEvent) :=
    (by decide : (3900 : UInt64).toNat ≤ (5000 : UInt64).toNat - (1000 : UInt64).toNat)
  have hlaw := (@end_reports_first_start (.nfsslower ⟨3900, 0⟩) ∅ resent resentExit 64 hend).2
    horderly
  obtain ⟨e, he⟩ := hlaw.1.mpr ⟨_, hfirst, hdue⟩
  obtain ⟨r, hr, htells⟩ := hlaw.2.1 e he
  obtain rfl := Option.some.inj (hfirst.symm.trans hr)
  exact ⟨e, he, htells⟩

end MonitoringTools.RequestLatency
