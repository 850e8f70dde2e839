import MonitoringTools.Consumers
import MonitoringTools.RingbufShim

/-!
# From the probes to the consumer

The four tools write into one pinned ring, in any interleaving of their probes, and a
consumer polls it now and then until a poll fails. The ring hands records over in the
order of their submission; the bytes that a producer leaves unwritten are arbitrary.
-/
namespace MonitoringTools.EventPipeline
open BpfHelpers Consumers DiagEvents EventLayout LittleEndian RingPoll RingbufShim Runs

structure Tools where
  smbslower : SmbslowerProbes.Rodata
  nfsslower : NfsslowerProbes.Rodata
  filters : ErrorTracers.Config
  nfsWakeup : Int32
  smbWakeup : Int32

def Tools.wakeup (t : Tools) : ErrorTracers.Response → Int32
  | .smb3CmdErr .. => t.smbWakeup
  | .rpcExitTask .. | .nfs4XdrStatus .. => t.nfsWakeup

inductive Firing where
  | smbslower (f : SlowCommands.SmbFiring)
  | nfsslower (f : NfsslowerProbes.Firing)
  | iosnoop (r : ErrorTracers.Response × Fill)

structure Producers where
  smbslower : SmbslowerProbes.Maps
  nfsslower : NfsslowerProbes.Maps

/-- The maps after a firing, and the events that it submitted. -/
def fire (t : Tools) (p : Producers) : Firing → Producers × List Event
  | .smbslower f =>
      let m := SlowCommands.smbFire t.smbslower p.smbslower f
      ({p with smbslower := m},
        (m.submissions.drop p.smbslower.submissions.length).map Submission.event)
  | .nfsslower f =>
      let m := NfsslowerProbes.fire t.nfsslower p.nfsslower f
      ({p with nfsslower := m},
        (m.submissions.drop p.nfsslower.submissions.length).map Submission.event)
  | .iosnoop r =>
      (p, (ErrorTracers.handle t.filters (t.wakeup r.1) r).toList.map Submission.event)

structure Written where
  event : Event
  pad : UInt8
  upper : UInt32

def Written.bytes (x : Written) : Record := eventBytes x.event x.pad x.upper

/-- The tools, all records submitted so far, how many of them the consumer took, what it
printed, how many of its batches were full, and whether it still polls. -/
structure System where
  producers : Producers
  written : List Written
  taken : ℕ
  lines : List Line
  full : ℕ
  polling : Bool

/-- The records that wait in the ring. -/
def System.ring (w : System) : List Record := (w.written.drop w.taken).map Written.bytes

def System.start (smbDenylist nfsDenylist : HashMap UInt16 UInt8) : System :=
  ⟨⟨SmbslowerProbes.Maps.fresh smbDenylist, NfsslowerProbes.Maps.fresh nfsDenylist⟩,
    [], 0, [], 0, true⟩

structure Round where
  lines : List Line
  handed : ℕ
  value : ℤ

abbrev Consumer := Wait → EventBuffer → List Record → Round

def maxBatch : ℤ := 2048

section
variable (decode : List UInt8 → String)

/-- A round of the sample consumer, whose callback prints. -/
def sampleRound : Consumer := fun wait _ ring =>
  let p := poll (fun lines data => (0, lines ++ (handleEvent decode data).toList)) wait [] ring
  ⟨p.context, p.handed.length, p.value⟩

/-- A round of the shim consumer, which prints the entries of its buffer. -/
def shimRound : Consumer := fun wait buf ring =>
  let a := (rbPollInto wait buf maxBatch ring).1
  ⟨a.batch.map (readEntry decode), a.handed.length, a.ret⟩

/-- The line that the sample consumer prints of an event. -/
def sampleLine (e : Event) : Line :=
  ⟨e.pid.toNat, decode (untilNul e.task.1), e.rqstId.toNat, e.command.toNat, written e⟩

/-- The shim consumer reads errors unsigned. -/
def shimReport (e : Event) : Report :=
  match e.metric with
  | .latencyNs v => .latencyNs v.toNat
  | .retval v =>
      if e.tool = smbiosnoop then .ntstatus v.toUInt32.toNat else .error v.toUInt32.toNat

/-- The line that the shim consumer prints: it reads the process id signed. -/
def shimLine (e : Event) : Line :=
  ⟨e.pid.toInt32.toInt, decode (untilNul e.task.1), e.rqstId.toNat, e.command.toNat, shimReport e⟩

end

inductive Move where
  | fire (f : Firing) (pad : UInt8) (upper : UInt32)
  | poll (wait : Wait) (buf : EventBuffer)

/-- A consumer goes on polling unless the poll failed otherwise than by a signal. -/
def step (consumer : Consumer) (t : Tools) (w : System) : Move → Option System
  | .fire f pad upper =>
      let fired := fire t w.producers f
      some {w with
        producers := fired.1
        written := w.written ++ fired.2.map fun e => ⟨e, pad, upper⟩}
  | .poll wait buf =>
      if w.polling then
        let round := consumer wait buf w.ring
        some {w with
          taken := w.taken + round.handed
          lines := w.lines ++ round.lines
          full := if round.value = maxBatch then w.full + 1 else w.full
          polling := ¬ (round.value < 0 ∧ round.value ≠ -eintr)}
      else none

/-- The events of a tool in the shared ring, in order. -/
def System.writtenBy (w : System) (tool : UInt8) : List Event :=
  (w.written.map Written.event).filter (·.tool = tool)

structure Wellformed (w : System) : Prop where
  shaped : ∀ x ∈ w.written, Shaped x.event
  taken : w.taken ≤ w.written.length
  smbslower : w.writtenBy smbslower = w.producers.smbslower.submissions.map Submission.event
  nfsslower : w.writtenBy nfsslower = w.producers.nfsslower.submissions.map Submission.event

/-- Everything taken was printed: once, in order, and as the producer wrote it. -/
def PrintsAll (line : Event → Line) (w : System) : Prop :=
  w.lines = (w.written.take w.taken).map fun x => line x.event

/-- What was taken was printed in order, but for at most one event for each full batch. -/
def PrintsMost (line : Event → Line) (w : System) : Prop :=
  w.lines.Sublist ((w.written.take w.taken).map fun x => line x.event) ∧
    w.taken ≤ w.lines.length + w.full

/-- What a firing adds to the ring: shaped events, those of a slow tool being its new
submissions. -/
structure Adds (p q : Producers) (events : List Event) : Prop where
  shaped : ∀ e ∈ events, Shaped e
  smbslower : q.smbslower.submissions.map Submission.event =
    p.smbslower.submissions.map Submission.event ++ events.filter (·.tool = smbslower)
  nfsslower : q.nfsslower.submissions.map Submission.event =
    p.nfsslower.submissions.map Submission.event ++ events.filter (·.tool = nfsslower)

/-- A program appends at most one submission, of a known tool. -/
def Appends (tool : UInt8) (old new : List Submission) : Prop :=
  ∃ s : Option Submission, new = old ++ s.toList ∧
    ∀ x ∈ s, x.event.tool = tool ∧ Shaped x.event

theorem Appends.refl (tool : UInt8) (old : List Submission) : Appends tool old old :=
  ⟨none, by simp, by simp⟩

theorem Appends.completion {tool : UInt8} {old : List Submission} {s : Option Submission}
    (h : ∀ x, s = some x → x.event.tool = tool ∧ Shaped x.event) :
    Appends tool old (old ++ s.toList) :=
  ⟨s, rfl, h⟩

theorem smbCompletion_tool {ro : SmbslowerProbes.Rodata} {c : DiagContext} {ring : Fill}
    {p : SmbslowerProbes.SmbPartialEvent} {s : Submission}
    (h : SmbslowerProbes.completion ro c ring p = some s) :
    s.event.tool = smbslower ∧ Shaped s.event := by
  refine ⟨?_, shaped_smbCompletion h⟩
  unfold SmbslowerProbes.completion at h
  split at h
  next => cases h
  next =>
      rw [submitEvent_event h]
      rfl

theorem nfsCompletion_tool {ro : NfsslowerProbes.Rodata} {c : DiagContext} {ring : Fill}
    {task : NfsslowerProbes.RpcTask} {p : NfsslowerProbes.NfsPartialEvent} {s : Submission}
    (h : NfsslowerProbes.completion ro c ring task p = some s) :
    s.event.tool = nfsslower ∧ Shaped s.event := by
  refine ⟨?_, shaped_nfsCompletion h⟩
  unfold NfsslowerProbes.completion at h
  split at h
  next => cases h
  next =>
      rw [submitEvent_event h]
      rfl

theorem smbFire_appends (ro : SmbslowerProbes.Rodata) (m : SmbslowerProbes.Maps)
    (f : SlowCommands.SmbFiring) :
    Appends smbslower m.submissions (SlowCommands.smbFire ro m f).submissions := by
  cases f with
  | tracepoint f =>
      cases f with
      | enter c room args =>
          simp only [SlowCommands.smbFire, SmbslowerTracepoints.fire,
            SmbslowerProbes.traceSmb3CmdEnter]
          split <;> exact .refl _ _
      | done c ring args | err c ring args =>
          simp only [SlowCommands.smbFire, SmbslowerTracepoints.fire,
            SmbslowerProbes.traceSmb3CmdDone, SmbslowerProbes.traceSmb3CmdErr,
            SmbslowerProbes.completeTraceEvent]
          split
          next => exact .refl _ _
          next => exact .completion fun _ => smbCompletion_tool
  | midAllocFexit c room mid =>
      rw [SlowCommands.smbFire, SmbslowerProbes.midAllocFexit, midAlloc_submissions]
      exact .refl _ _
  | midAllocKretprobe c room mid | midAllocRhel810Kretprobe c room mid
  | midAllocRhel810553134Kretprobe c room mid =>
      cases mid with
      | none => exact .refl _ _
      | some mid => exact midAlloc_submissions ▸ .refl _ _
  | midRelease c ring addr =>
      simp only [SlowCommands.smbFire, SmbslowerProbes.probeExit]
      split
      next => exact .refl _ _
      next => exact .completion fun _ => smbCompletion_tool

theorem nfsFire_appends (ro : NfsslowerProbes.Rodata) (m : NfsslowerProbes.Maps)
    (f : NfsslowerProbes.Firing) :
    Appends nfsslower m.submissions (NfsslowerProbes.fire ro m f).submissions := by
  cases f with
  | nfs4SetupSequence c room task =>
      simp only [NfsslowerProbes.fire, NfsslowerProbes.probeEntry]
      split <;> exact .refl _ _
  | rpcExitTask c ring task =>
      simp only [NfsslowerProbes.fire, NfsslowerProbes.probeExit]
      split
      next => exact .refl _ _
      next => exact .completion fun _ => nfsCompletion_tool

theorem Appends.events {tool : UInt8} {old new : List Submission} (h : Appends tool old new) :
    let events := (new.drop old.length).map Submission.event
    (∀ e ∈ events, e.tool = tool ∧ Shaped e) ∧
      new.map Submission.event = old.map Submission.event ++ events := by
  obtain ⟨s, rfl, hs⟩ := h
  rw [List.drop_left]
  refine ⟨fun e he => ?_, List.map_append⟩
  obtain ⟨x, hx, rfl⟩ := List.mem_map.mp he
  exact hs x (Option.mem_toList.mp hx)

theorem filter_own {events : List Event} {tool : UInt8} (h : ∀ e ∈ events, e.tool = tool) :
    events.filter (·.tool = tool) = events :=
  List.filter_eq_self.mpr fun e he => decide_eq_true (h e he)

theorem filter_other {events : List Event} {tool other : UInt8} (h : ∀ e ∈ events, e.tool = tool)
    (hne : tool ≠ other) : events.filter (·.tool = other) = [] :=
  List.filter_eq_nil_iff.mpr fun e he htool =>
    hne ((h e he).symm.trans (of_decide_eq_true htool))

theorem selected_tool {cfg : ErrorTracers.Config} {response : ErrorTracers.Response} {e : Event}
    (h : ErrorTracers.selected cfg response = some e) :
    e.tool ≠ smbslower ∧ e.tool ≠ nfsslower := by
  have htool : e.tool = smbiosnoop ∨ e.tool = nfsiosnoop := by
    cases response with
    | rpcExitTask c task | nfs4XdrStatus c xid op error =>
        obtain ⟨-, ⟨⟩⟩ := Option.ite_none_right_eq_some.mp h
        exact .inr rfl
    | smb3CmdErr c args =>
        obtain ⟨-, ⟨⟩⟩ := Option.ite_none_right_eq_some.mp h
        exact .inl rfl
  rcases htool with h | h <;> rw [h] <;> decide

theorem fire_adds (t : Tools) (p : Producers) (f : Firing) :
    Adds p (fire t p f).1 (fire t p f).2 := by
  cases f with
  | smbslower f =>
      obtain ⟨howned, hall⟩ := (smbFire_appends t.smbslower p.smbslower f).events
      have htool := fun e he => (howned e he).1
      refine ⟨fun e he => (howned e he).2, ?_, ?_⟩
      · exact hall.trans (congrArg _ (filter_own htool).symm)
      · exact (List.append_nil _).symm.trans
          (congrArg _ (filter_other htool (by decide)).symm)
  | nfsslower f =>
      obtain ⟨howned, hall⟩ := (nfsFire_appends t.nfsslower p.nfsslower f).events
      have htool := fun e he => (howned e he).1
      refine ⟨fun e he => (howned e he).2, ?_, ?_⟩
      · exact (List.append_nil _).symm.trans
          (congrArg _ (filter_other htool (by decide)).symm)
      · exact hall.trans (congrArg _ (filter_own htool).symm)
  | iosnoop r =>
      have hevents : ∀ e ∈ (fire t p (.iosnoop r)).2,
          Shaped e ∧ e.tool ≠ smbslower ∧ e.tool ≠ nfsslower := by
        intro e he
        obtain ⟨s, hs, rfl⟩ := List.mem_map.mp he
        rw [Option.mem_toList, ErrorTracers.handle_eq, Option.bind_eq_some_iff] at hs
        obtain ⟨selected, hselected, hsubmit⟩ := hs
        rw [submitEvent_event hsubmit]
        exact ⟨shaped_selected hselected, selected_tool hselected⟩
      refine ⟨fun e he => (hevents e he).1, ?_, ?_⟩
      · rw [List.filter_eq_nil_iff.mpr, List.append_nil]
        · rfl
        · exact fun e he htool => (hevents e he).2.1 (of_decide_eq_true htool)
      · rw [List.filter_eq_nil_iff.mpr, List.append_nil]
        · rfl
        · exact fun e he htool => (hevents e he).2.2 (of_decide_eq_true htool)

section Lines
variable (decode : List UInt8 → String) {e : Event}

/-- A consumer prints the same line whatever the unwritten bytes hold. -/
theorem handleEvent_bytes (h : Shaped e) (pad : UInt8) (upper : UInt32) :
    handleEvent decode (eventBytes e pad upper) = some (sampleLine decode e) := by
  have hreport := handleEvent_report decode h pad upper
  rw [handleEvent, if_neg (length_eventBytes e pad upper).not_lt] at hreport ⊢
  simp only [Option.map_some, Option.some.injEq] at hreport
  simp only [hreport, field_eq (slice_pid e pad upper) e.pid.toNat_lt,
    field_eq (slice_command e pad upper) e.command.toNat_lt,
    field_eq (slice_rqstId e pad upper) e.rqstId.toNat_lt, slice_task, untilNul_untilNul]
  rfl

theorem dropNuls_tool {b : UInt8} (hb : b ≠ 0) (pad : UInt8) (upper : UInt32) :
    dropNuls (slice (eventBytes e pad upper) 6 1) = [b] ↔ e.tool = b := by
  rw [dropNuls_eq_iff hb _ (by rw [slice_tool]; rfl), slice_tool]
  simp

theorem lower_metric {v : Int32} (h : e.metric = .retval v) (pad : UInt8) (upper : UInt32) :
    field (eventBytes e pad upper) 24 8 &&& 0xffffffff = v.toUInt32.toNat := by
  have hfits : 24 + 8 ≤ (eventBytes e pad upper).length := by
    rw [length_eventBytes]
    decide
  rw [← field_retval h pad upper, ← field_mod _ 24 hfits]
  exact Nat.and_two_pow_sub_one_eq_mod _ 32

theorem shimReport_eq (h : Shaped e) (pad : UInt8) (upper : UInt32) :
    (if dropNuls (slice (eventBytes e pad upper) 6 1) = [1] then
        Report.ntstatus (field (eventBytes e pad upper) 24 8 &&& 0xffffffff : ℕ)
      else if dropNuls (slice (eventBytes e pad upper) 6 1) = [11] then
        Report.error (field (eventBytes e pad upper) 24 8 &&& 0xffffffff : ℕ)
      else Report.latencyNs (field (eventBytes e pad upper) 24 8)) = shimReport e := by
  simp only [@dropNuls_tool e 1 (by decide), @dropNuls_tool e 11 (by decide)]
  rw [shimReport]
  cases h with
  | slower v htool hmetric =>
      have hsmb : e.tool ≠ 1 := by rcases htool with h | h <;> rw [h] <;> decide
      have hnfs : e.tool ≠ 11 := by rcases htool with h | h <;> rw [h] <;> decide
      rw [if_neg hsmb, if_neg hnfs, field_latencyNs hmetric, hmetric]
  | iosnoop v htool hmetric =>
      rw [lower_metric hmetric, hmetric]
      rcases htool with h | h
      · exact (if_pos h).trans (if_pos h).symm
      · have hsmb : e.tool ≠ 1 := by rw [h]; decide
        exact ((if_neg hsmb).trans (if_pos h)).trans (if_neg hsmb).symm

theorem readEntry_bytes (h : Shaped e) (pad : UInt8) (upper : UInt32) :
    readEntry decode (eventBytes e pad upper) = shimLine decode e := by
  have hpid : int32Field (eventBytes e pad upper) 0 = e.pid.toInt32.toInt := by
    have hsame : Int32.ofNat e.pid.toNat = e.pid.toInt32 :=
      congrArg UInt32.toInt32 UInt32.ofNat_toNat
    rw [int32Field, field_eq (slice_pid e pad upper) e.pid.toNat_lt, hsame]
  rw [readEntry, shimLine, hpid, shimReport_eq h pad upper]
  simp only [field_eq (slice_command e pad upper) e.command.toNat_lt,
    field_eq (slice_rqstId e pad upper) e.rqstId.toNat_lt, slice_task, untilNul_dropNuls]

end Lines

section Runs
variable {decode : List UInt8 → String} {t : Tools} {w v : System}

theorem wellformed_start (smbDenylist nfsDenylist : HashMap UInt16 UInt8) :
    Wellformed (System.start smbDenylist nfsDenylist) :=
  ⟨fun _ hx => absurd hx List.not_mem_nil, le_refl _, rfl, rfl⟩

/-- A consumer may look at the ring and take records off its front. -/
def Fair (consumer : Consumer) : Prop :=
  ∀ wait buf ring, (consumer wait buf ring).handed ≤ ring.length

theorem System.length_ring (w : System) : w.ring.length = w.written.length - w.taken := by
  simp [System.ring]

theorem step_wellformed {consumer : Consumer} (hfair : Fair consumer) (m : Move)
    (h : Wellformed w) (hstep : step consumer t w m = some v) : Wellformed v := by
  cases m with
  | fire f pad upper =>
      cases hstep
      have hadds := fire_adds t w.producers f
      have hevents : ((fire t w.producers f).2.map fun e => (⟨e, pad, upper⟩ : Written)).map
          Written.event = (fire t w.producers f).2 := by
        rw [List.map_map]
        exact List.map_id _
      refine ⟨fun x hx => ?_, ?_, ?_, ?_⟩
      · rcases List.mem_append.mp hx with hold | hnew
        · exact h.shaped x hold
        · obtain ⟨e, he, rfl⟩ := List.mem_map.mp hnew
          exact hadds.shaped e he
      · exact h.taken.trans (List.length_append ▸ Nat.le_add_right _ _)
      · rw [System.writtenBy, List.map_append, List.filter_append, hevents, hadds.smbslower,
          ← h.smbslower, System.writtenBy]
      · rw [System.writtenBy, List.map_append, List.filter_append, hevents, hadds.nfsslower,
          ← h.nfsslower, System.writtenBy]
  | poll wait buf =>
      obtain ⟨-, ⟨⟩⟩ := Option.ite_none_right_eq_some.mp hstep
      refine ⟨h.shaped, ?_, h.smbslower, h.nfsslower⟩
      have htaken := hfair wait buf w.ring
      rw [System.length_ring] at htaken
      show w.taken + _ ≤ w.written.length
      have := h.taken
      omega

theorem take_add {n : ℕ} :
    w.written.take (w.taken + n) = w.written.take w.taken ++ (w.written.drop w.taken).take n :=
  List.take_add

theorem sampleRound_spec (wait : Wait) (buf : EventBuffer) (ring : List Record) :
    sampleRound decode wait buf ring =
      match wait with
      | .failed errno => ⟨[], 0, -errno⟩
      | .timeout => ⟨[], 0, 0⟩
      | .ready => ⟨ring.flatMap fun data => (handleEvent decode data).toList, ring.length,
          ring.length⟩ := by
  cases wait with
  | failed errno => rfl
  | timeout => rfl
  | ready =>
      rw [sampleRound, poll, consume_of_nonneg fun _ _ => le_refl _]
      simp [List.flatMap]

theorem sampleLines {xs : List Written} (h : ∀ x ∈ xs, Shaped x.event) :
    (xs.map Written.bytes).flatMap (fun data => (handleEvent decode data).toList) =
      xs.map fun x => sampleLine decode x.event := by
  induction xs with
  | nil => rfl
  | cons x xs ih =>
      obtain ⟨hx, hxs⟩ := List.forall_mem_cons.mp h
      rw [List.map_cons, List.flatMap_cons, ih hxs, Written.bytes, handleEvent_bytes decode hx]
      rfl

theorem shimLines {xs : List Written} (h : ∀ x ∈ xs, Shaped x.event) :
    (xs.map Written.bytes).map (readEntry decode) =
      xs.map fun x => shimLine decode x.event := by
  rw [List.map_map]
  exact List.map_congr_left fun x hx => readEntry_bytes decode (h x hx) x.pad x.upper

theorem fair_sampleRound : Fair (sampleRound decode) := by
  intro wait buf ring
  rw [sampleRound_spec]
  cases wait <;> simp

/-- A poll of the sample consumer that finds data prints all that waits. -/
theorem step_sample_ready (hw : Wellformed w) (hall : PrintsAll (sampleLine decode) w)
    {buf : EventBuffer} (hstep : step (sampleRound decode) t w (.poll .ready buf) = some v) :
    v.taken = w.written.length ∧
      v.lines = w.written.map fun x => sampleLine decode x.event := by
  obtain ⟨-, ⟨⟩⟩ := Option.ite_none_right_eq_some.mp hstep
  have hrest : ∀ x ∈ w.written.drop w.taken, Shaped x.event :=
    fun x hx => hw.shaped x (List.mem_of_mem_drop hx)
  refine ⟨?_, ?_⟩
  · simp only [sampleRound_spec, System.length_ring]
    exact Nat.add_sub_of_le hw.taken
  · simp only [sampleRound_spec, System.ring]
    rw [sampleLines hrest, hall, ← List.map_append, List.take_append_drop]

theorem step_sample (m : Move) (hw : Wellformed w) (hall : PrintsAll (sampleLine decode) w)
    (hstep : step (sampleRound decode) t w m = some v) : PrintsAll (sampleLine decode) v := by
  cases m with
  | fire f pad upper =>
      cases hstep
      rw [PrintsAll, List.take_append_of_le_length hw.taken]
      exact hall
  | poll wait buf =>
      cases wait with
      | failed errno | timeout =>
          obtain ⟨-, ⟨⟩⟩ := Option.ite_none_right_eq_some.mp hstep
          simp only [PrintsAll, sampleRound_spec, List.append_nil, Nat.add_zero]
          exact hall
      | ready =>
          obtain ⟨htaken, hlines⟩ := step_sample_ready hw hall hstep
          have hwritten : v.written = w.written := by
            obtain ⟨-, ⟨⟩⟩ := Option.ite_none_right_eq_some.mp hstep
            rfl
          rw [PrintsAll, htaken, hwritten, List.take_length]
          exact hlines

/-- A call of the shim over whole records: its entries are the first records that it took. -/
theorem rbPollInto_whole (wait : Wait) (buf : EventBuffer) {ring : List Record}
    (h : ∀ r ∈ ring, r.length = sizeofEvent) :
    let a := (rbPollInto wait buf maxBatch ring).1
    a.handed.length ≤ ring.length ∧
      a.batch = (ring.take a.handed.length).take a.ret.toNat ∧
        a.handed.length ≤ a.ret.toNat + if a.ret = maxBatch then 1 else 0 := by
  intro a
  have hcap : (1 : ℤ) ≤ maxBatch := by decide
  have hdelivers : Delivers ⟨[], wait, buf, maxBatch⟩ a :=
    rbPollInto_delivers ⟨[], wait, buf, maxBatch⟩ hcap ring
  have hsplit : a.handed ++ (rbPollInto wait buf maxBatch ring).2 = ring :=
    handed_append_left wait _ ring
  have hhanded : ring.take a.handed.length = a.handed := by
    conv_lhs => rw [← hsplit]
    exact List.take_left
  have hlength : ∀ r ∈ a.handed, r.length = sizeofEvent := fun r hr =>
    h r (hsplit ▸ List.mem_append_left _ hr)
  have hwhole : a.handed.filter Whole = a.handed :=
    List.filter_eq_self.mpr fun r hr => decide_eq_true (hlength r hr).ge
  refine ⟨?_, ?_, ?_⟩
  · rw [← hsplit, List.length_append]
    exact Nat.le_add_right _ _
  · rw [hhanded, hdelivers.batch, hwhole]
    refine (List.map_congr_left fun r hr => ?_).trans (List.map_id _)
    rw [← hlength r (List.mem_of_mem_take hr), List.take_length]
    rfl
  · have hlost : a.lost.length = a.handed.length - a.ret.toNat := by
      rw [Answer.lost, hwhole, List.length_drop]
    split
    next hfull =>
        rcases hdelivers.full hfull with hnone | ⟨r, hone, -⟩
        · rw [hnone, List.length_nil] at hlost
          omega
        · rw [hone, List.length_singleton] at hlost
          omega
    next hroom =>
        rw [hdelivers.complete (lt_of_le_of_ne hdelivers.within.1 hroom), List.length_nil] at hlost
        omega

theorem length_ring_record {r : Record} (h : r ∈ w.ring) : r.length = sizeofEvent := by
  obtain ⟨x, -, rfl⟩ := List.mem_map.mp h
  exact length_eventBytes _ _ _

theorem fair_shimRound : Fair (shimRound decode) := by
  intro wait buf ring
  have hsplit := @handed_append_left _ _ copyEvent wait ⟨buf, maxBatch, 0⟩ ring
  exact (congrArg List.length hsplit) ▸ List.length_append ▸ Nat.le_add_right _ _

theorem step_shim (m : Move) (hw : Wellformed w) (hmost : PrintsMost (shimLine decode) w)
    (hstep : step (shimRound decode) t w m = some v) : PrintsMost (shimLine decode) v := by
  cases m with
  | fire f pad upper =>
      cases hstep
      rw [PrintsMost, List.take_append_of_le_length hw.taken]
      exact hmost
  | poll wait buf =>
      obtain ⟨-, ⟨⟩⟩ := Option.ite_none_right_eq_some.mp hstep
      obtain ⟨hle, hbatch, hcount⟩ := rbPollInto_whole wait buf fun _ => @length_ring_record w _
      set a := (rbPollInto wait buf maxBatch w.ring).1 with ha
      have hround : shimRound decode wait buf w.ring =
          ⟨a.batch.map (readEntry decode), a.handed.length, a.ret⟩ := rfl
      have hrest : ∀ x ∈ (w.written.drop w.taken).take a.handed.length, Shaped x.event :=
        fun x hx => hw.shaped x (List.mem_of_mem_drop (List.mem_of_mem_take hx))
      have hlines : a.batch.map (readEntry decode) =
          (((w.written.drop w.taken).take a.handed.length).map
            fun x => shimLine decode x.event).take a.ret.toNat := by
        rw [hbatch, System.ring, ← List.map_take, List.map_take, shimLines hrest]
      simp only [PrintsMost, hround]
      refine ⟨?_, ?_⟩
      · rw [List.take_add, List.map_append, hlines]
        exact hmost.1.append (List.take_sublist _ _)
      · have hprinted : (a.batch.map (readEntry decode)).length =
            min a.ret.toNat a.handed.length := by
          rw [List.length_map, hbatch, List.length_take, List.length_take, min_eq_left hle]
        rw [List.length_append, hprinted]
        have := hmost.2
        split at hcount
        next hfull =>
            rw [if_pos hfull]
            omega
        next hroom =>
            rw [if_neg hroom]
            omega

theorem PrintsMost.all {line : Event → Line} (h : PrintsMost line w) (hw : Wellformed w)
    (hfull : w.full = 0) : PrintsAll line w := by
  refine h.1.eq_of_length_le ?_
  rw [List.length_map, List.length_take, min_eq_left hw.taken]
  have := h.2
  omega

/-- The sample consumer loses nothing: in every interleaving of the tools' firings with its
polls it printed each record it took, once, in order and as the producer wrote it, and a
poll that finds data catches up with all that was ever submitted. -/
theorem run_sample {smbDenylist nfsDenylist : HashMap UInt16 UInt8} {moves : List Move}
    (hrun : run (step (sampleRound decode) t) (System.start smbDenylist nfsDenylist) moves =
      some w) :
    Wellformed w ∧ PrintsAll (sampleLine decode) w ∧
      ∀ buf v, step (sampleRound decode) t w (.poll .ready buf) = some v →
        v.lines = w.written.map fun x => sampleLine decode x.event := by
  have hreached : Wellformed w ∧ PrintsAll (sampleLine decode) w :=
    @run_invariant _ _ _ (fun w => Wellformed w ∧ PrintsAll (sampleLine decode) w)
      (fun _ => True) _ _ _
      (fun _ m _ h _ hstep =>
        ⟨step_wellformed fair_sampleRound m h.1 hstep, step_sample m h.1 h.2 hstep⟩)
      hrun ⟨wellformed_start _ _, rfl⟩ fun _ _ => trivial
  exact ⟨hreached.1, hreached.2, fun buf v hstep =>
    (step_sample_ready hreached.1 hreached.2 hstep).2⟩

/-- The shim consumer prints in order what the producers wrote, and loses at most one event
for each full batch that it was handed; without a full batch it loses nothing. -/
theorem run_shim {smbDenylist nfsDenylist : HashMap UInt16 UInt8} {moves : List Move}
    (hrun : run (step (shimRound decode) t) (System.start smbDenylist nfsDenylist) moves =
      some w) :
    Wellformed w ∧ PrintsMost (shimLine decode) w ∧
      (w.full = 0 → PrintsAll (shimLine decode) w) := by
  have hreached : Wellformed w ∧ PrintsMost (shimLine decode) w :=
    @run_invariant _ _ _ (fun w => Wellformed w ∧ PrintsMost (shimLine decode) w)
      (fun _ => True) _ _ _
      (fun _ m _ h _ hstep =>
        ⟨step_wellformed fair_shimRound m h.1 hstep, step_shim m h.1 h.2 hstep⟩)
      hrun ⟨wellformed_start _ _, .refl _, le_refl _⟩ fun _ _ => trivial
  exact ⟨hreached.1, hreached.2, hreached.2.all hreached.1⟩

end Runs

def oneCommandTools : Tools := ⟨⟨1000, 0⟩, ⟨1000, 0⟩, ErrorTracers.oneCommand, 0, 0⟩

/-- A slow NFS request and an SMB error, with polls that time out, are interrupted or fail
in between. -/
def interleaved : List Move :=
  let c := fun ktime : UInt64 =>
    (⟨(77 : UInt64) <<< 32, .ofString 16 (bytes "cp"), ktime⟩ : DiagContext)
  let task : NfsslowerProbes.RpcTask := ⟨0xff, 4, 0x01000000⟩
  let fill : Fill := ⟨true, 0, 0⟩
  let none : EventBuffer := fun _ => []
  [.fire (.nfsslower (.nfs4SetupSequence (c 10) true task)) 0 0, .poll .timeout none,
    .fire (.iosnoop (.smb3CmdErr (c 20) ⟨5, 6, 0xc0000022⟩, fill)) 0xff 0xffffffff,
    .poll (.failed 4) none, .poll .ready none,
    .fire (.nfsslower (.rpcExitTask (c 5000) fill task)) 1 1, .poll .ready none,
    .poll (.failed 9) none]

def reported : List Line :=
  [⟨77, "cp", 6, 5, .ntstatus 0xc0000022⟩, ⟨77, "cp", 1, 4, .latencyNs 4990⟩]

theorem run_sample_interleaved : ∃ w,
    run (step (sampleRound ascii) oneCommandTools) (System.start ∅ ∅) interleaved = some w ∧
      (w.lines = reported ∧ w.polling = false) ∧
      Wellformed w ∧ PrintsAll (sampleLine ascii) w ∧
        ∀ buf v, step (sampleRound ascii) oneCommandTools w (.poll .ready buf) = some v →
          v.lines = w.written.map fun x => sampleLine ascii x.event := by
  obtain ⟨w, hrun, hlines⟩ : ∃ w,
      run (step (sampleRound ascii) oneCommandTools) (System.start ∅ ∅) interleaved = some w ∧
        w.lines = reported ∧ w.polling = false := ⟨_, rfl, by decide +kernel⟩
  exact ⟨w, hrun, hlines, run_sample hrun⟩

theorem run_shim_interleaved : ∃ w,
    run (step (shimRound ascii) oneCommandTools) (System.start ∅ ∅) interleaved = some w ∧
      (w.lines = reported ∧ w.full = 0) ∧
      Wellformed w ∧ PrintsMost (shimLine ascii) w ∧
        (w.full = 0 → PrintsAll (shimLine ascii) w) := by
  obtain ⟨w, hrun, hlines⟩ : ∃ w,
      run (step (shimRound ascii) oneCommandTools) (System.start ∅ ∅) interleaved = some w ∧
        w.lines = reported ∧ w.full = 0 := ⟨_, rfl, by decide +kernel⟩
  exact ⟨w, hrun, hlines, run_shim hrun⟩

end MonitoringTools.EventPipeline
