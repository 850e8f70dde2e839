import Mathlib.Data.List.DropRight
import MonitoringTools.ErrorTracers
import MonitoringTools.EventLayout
import MonitoringTools.Runs
import MonitoringTools.SlowCommands

/-!
# The two consumers

Both read the fields of a record at the offsets of the C structure. The sample
consumer reads the metric as a union and its return value as a signed number; the
shim consumer reads eight bytes and keeps the lower half of an error. Python's
`decode` of a task name is a parameter: both apply it to the same bytes.
-/
namespace MonitoringTools.Consumers
open BpfHelpers DiagEvents LittleEndian EventLayout

/-- The bytes of a field. -/
def slice (data : List UInt8) (offset size : ℕ) : List UInt8 := (data.drop offset).take size

def field (data : List UInt8) (offset size : ℕ) : ℕ := decode (slice data offset size)

/-- A signed field of four bytes. -/
def int32Field (data : List UInt8) (offset : ℕ) : ℤ :=
  (Int32.ofNat (field data offset 4)).toInt

inductive Report where
  | latencyNs (v : ℤ)
  | ntstatus (v : ℤ)
  | error (v : ℤ)
  deriving DecidableEq, Repr

structure Line where
  pid : ℤ
  task : String
  rqstId : ℤ
  cmd : ℤ
  report : Report
  deriving DecidableEq, Repr

/-- What stands before the first NUL. -/
def untilNul (bs : List UInt8) : List UInt8 := bs.takeWhile (· ≠ 0)

/-- A numpy byte string drops its trailing NULs. -/
def dropNuls (bs : List UInt8) : List UInt8 := bs.rdropWhile (· = 0)

section
variable (decode : List UInt8 → String)

/-- `_handle_event` of the sample consumer. A ctypes character array ends at its first
NUL, a single character keeps its value. -/
def handleEvent (data : List UInt8) : Option Line :=
  if data.length < sizeofEvent then none
  else
    let tool := slice data 6 1
    let latencyNs : ℤ := field data 24 8
    let retval := int32Field data 24
    let report : Report :=
      if tool = [1] then .ntstatus (retval % 2 ^ 32)
      else if tool = [11] then .error retval
      else .latencyNs latencyNs
    some ⟨field data 0 4, decode (untilNul (untilNul (slice data 32 16))),
      field data 16 8, field data 4 2, report⟩

/-- The loop body of the shim consumer, over one entry of the buffer. -/
def readEntry (entry : List UInt8) : Line :=
  let tool := dropNuls (slice entry 6 1)
  let metricLatencyNs := field entry 24 8
  let report : Report :=
    if tool = [1] then .ntstatus (metricLatencyNs &&& 0xffffffff : ℕ)
    else if tool = [11] then .error (metricLatencyNs &&& 0xffffffff : ℕ)
    else .latencyNs metricLatencyNs
  ⟨int32Field entry 0, decode (untilNul (dropNuls (slice entry 32 16))),
    field entry 16 8, field entry 4 2, report⟩

/-- Both consumers decode a record to the same line, and it tells what the producer
wrote. -/
def DecodedAlike (e : Event) (data : List UInt8) : Prop :=
  handleEvent decode data = some (readEntry decode data) ∧
    (readEntry decode data).pid = e.pid.toNat ∧
    (readEntry decode data).cmd = e.command.toNat ∧
    (readEntry decode data).rqstId = e.rqstId.toNat ∧
    (readEntry decode data).task = decode (untilNul e.task.1)

end

inductive Produced : Event → Prop
  | smbslower {ro : SmbslowerProbes.Rodata} {list : HashMap UInt16 UInt8}
      {fs : List SlowCommands.SmbFiring} {s : Submission} :
      s ∈ (fs.foldl (SlowCommands.smbFire ro) (SmbslowerProbes.Maps.fresh list)).submissions →
        Produced s.event
  | nfsslower {ro : NfsslowerProbes.Rodata} {list : HashMap UInt16 UInt8}
      {fs : List NfsslowerProbes.Firing} {s : Submission} :
      s ∈ (fs.foldl (NfsslowerProbes.fire ro) (NfsslowerProbes.Maps.fresh list)).submissions →
        Produced s.event
  | iosnoop {cfg : ErrorTracers.Config} {w : Int32} {response : ErrorTracers.Response × Fill}
      {s : Submission} : ErrorTracers.handle cfg w response = some s → Produced s.event

/-- The tool byte says which member of the union was written. -/
inductive Shaped (e : Event) : Prop
  | slower (v : UInt64) : e.tool = smbslower ∨ e.tool = nfsslower → e.metric = .latencyNs v → Shaped e
  | iosnoop (v : Int32) : e.tool = smbiosnoop ∨ e.tool = nfsiosnoop → e.metric = .retval v → Shaped e

/-- The metric that the producer wrote, as a consumer should report it. -/
def written (e : Event) : Report :=
  match e.metric with
  | .latencyNs v => .latencyNs v.toNat
  | .retval v => if e.tool = smbiosnoop then .ntstatus v.toUInt32.toNat else .error v.toInt

/-- An NFS error with the sign bit set. -/
def NegativeError (e : Event) : Prop :=
  e.tool = nfsiosnoop ∧ ∃ v : Int32, e.metric = .retval v ∧ v.toInt < 0

theorem submitEvent_event {flags : ℕ} {w : Int32} {ring : Fill} {e : Event} {s : Submission}
    (h : submitEvent flags w ring e = some s) : s.event = e := by
  unfold submitEvent at h
  split at h
  next =>
      cases h
      rfl
  next => cases h

theorem shaped_smbCompletion {ro : SmbslowerProbes.Rodata} {c : DiagContext} {ring : Fill}
    {p : SmbslowerProbes.SmbPartialEvent} {s : Submission}
    (h : SmbslowerProbes.completion ro c ring p = some s) : Shaped s.event := by
  unfold SmbslowerProbes.completion at h
  split at h
  next => cases h
  next =>
      rw [submitEvent_event h]
      exact .slower _ (.inl rfl) rfl

theorem shaped_nfsCompletion {ro : NfsslowerProbes.Rodata} {c : DiagContext} {ring : Fill}
    {task : NfsslowerProbes.RpcTask} {p : NfsslowerProbes.NfsPartialEvent} {s : Submission}
    (h : NfsslowerProbes.completion ro c ring task p = some s) : Shaped s.event := by
  unfold NfsslowerProbes.completion at h
  split at h
  next => cases h
  next =>
      rw [submitEvent_event h]
      exact .slower _ (.inr rfl) rfl

theorem shaped_or_mem {old : List Submission} {new : Option Submission} {s : Submission}
    (hnew : new = some s → Shaped s.event) (h : s ∈ old ++ new.toList) :
    Shaped s.event ∨ s ∈ old := by
  rcases List.mem_append.mp h with hold | hmem
  · exact .inr hold
  · exact .inl (hnew (Option.mem_toList.mp hmem))

theorem midAlloc_submissions {commandOffset midOffset : ℕ} {m : SmbslowerProbes.Maps}
    {c : DiagContext} {room : Bool} {mid : SmbslowerProbes.MidQEntry} :
    (SmbslowerProbes.midAlloc commandOffset midOffset m c room mid).submissions =
      m.submissions := by
  unfold SmbslowerProbes.midAlloc
  dsimp only
  split <;> rfl

theorem smbFire_submissions {ro : SmbslowerProbes.Rodata} {m : SmbslowerProbes.Maps}
    {f : SlowCommands.SmbFiring} {s : Submission}
    (h : s ∈ (SlowCommands.smbFire ro m f).submissions) :
    Shaped s.event ∨ s ∈ m.submissions := by
  cases f with
  | tracepoint f =>
      cases f with
      | enter c room args =>
          simp only [SlowCommands.smbFire, SmbslowerTracepoints.fire,
            SmbslowerProbes.traceSmb3CmdEnter] at h
          split at h <;> exact .inr h
      | done c ring args | err c ring args =>
          simp only [SlowCommands.smbFire, SmbslowerTracepoints.fire,
            SmbslowerProbes.traceSmb3CmdDone, SmbslowerProbes.traceSmb3CmdErr,
            SmbslowerProbes.completeTraceEvent] at h
          split at h
          next => exact .inr h
          next => exact shaped_or_mem shaped_smbCompletion h
  | midAllocFexit c room mid => exact .inr (midAlloc_submissions ▸ h)
  | midAllocKretprobe c room mid | midAllocRhel810Kretprobe c room mid
  | midAllocRhel810553134Kretprobe c room mid =>
      cases mid with
      | none => exact .inr h
      | some mid => exact .inr (midAlloc_submissions ▸ h)
  | midRelease c ring addr =>
      simp only [SlowCommands.smbFire, SmbslowerProbes.probeExit] at h
      split at h
      next => exact .inr h
      next => exact shaped_or_mem shaped_smbCompletion h

theorem nfsFire_submissions {ro : NfsslowerProbes.Rodata} {m : NfsslowerProbes.Maps}
    {f : NfsslowerProbes.Firing} {s : Submission}
    (h : s ∈ (NfsslowerProbes.fire ro m f).submissions) :
    Shaped s.event ∨ s ∈ m.submissions := by
  cases f with
  | nfs4SetupSequence c room task =>
      simp only [NfsslowerProbes.fire, NfsslowerProbes.probeEntry] at h
      split at h <;> exact .inr h
  | rpcExitTask c ring task =>
      simp only [NfsslowerProbes.fire, NfsslowerProbes.probeExit] at h
      split at h
      next => exact .inr h
      next => exact shaped_or_mem shaped_nfsCompletion h

theorem shaped_selected {cfg : ErrorTracers.Config} {response : ErrorTracers.Response} {e : Event}
    (h : ErrorTracers.selected cfg response = some e) : Shaped e := by
  cases response with
  | rpcExitTask c task | nfs4XdrStatus c xid op error =>
      obtain ⟨-, ⟨⟩⟩ := Option.ite_none_right_eq_some.mp h
      exact .iosnoop _ (.inr rfl) rfl
  | smb3CmdErr c args =>
      obtain ⟨-, ⟨⟩⟩ := Option.ite_none_right_eq_some.mp h
      exact .iosnoop _ (.inl rfl) rfl

theorem Produced.shaped {e : Event} (h : Produced e) : Shaped e := by
  cases h with
  | @smbslower ro list fs s h =>
      obtain ⟨-, -, -, -, hshaped⟩ := Runs.foldl_provenance
        (fun (m : SmbslowerProbes.Maps) s => s ∈ m.submissions) (fun _ _ s => Shaped s.event)
        (fun _ => List.not_mem_nil) (fun _ _ _ => smbFire_submissions) h
      exact hshaped
  | @nfsslower ro list fs s h =>
      obtain ⟨-, -, -, -, hshaped⟩ := Runs.foldl_provenance
        (fun (m : NfsslowerProbes.Maps) s => s ∈ m.submissions) (fun _ _ s => Shaped s.event)
        (fun _ => List.not_mem_nil) (fun _ _ _ => nfsFire_submissions) h
      exact hshaped
  | iosnoop h =>
      rw [ErrorTracers.handle_eq, Option.bind_eq_some_iff] at h
      obtain ⟨e, hselected, hsubmit⟩ := h
      rw [submitEvent_event hsubmit]
      exact shaped_selected hselected

theorem slice_skip {pre rest : List UInt8} {offset size : ℕ} (h : pre.length ≤ offset) :
    slice (pre ++ rest) offset size = slice rest (offset - pre.length) size := by
  rw [slice, slice, List.drop_append, List.drop_eq_nil_of_le h, List.nil_append]

theorem slice_head {pre rest : List UInt8} {size : ℕ} (h : pre.length = size) :
    slice (pre ++ rest) 0 size = pre := by
  rw [slice, List.drop_zero, ← h, List.take_left]

theorem slice_all {data : List UInt8} {size : ℕ} (h : data.length = size) :
    slice data 0 size = data := by
  rw [slice, List.drop_zero, ← h, List.take_length]

theorem slice_skip_cons {b : UInt8} {rest : List UInt8} {offset size : ℕ} (h : 0 < offset) :
    slice (b :: rest) offset size = slice rest (offset - 1) size :=
  @slice_skip [b] rest offset size h

section Fields
variable (e : Event) (pad : UInt8) (upper : UInt32)

theorem slice_pid : slice (eventBytes e pad upper) 0 4 = encode 4 e.pid.toNat := by
  simp only [eventBytes, List.append_assoc]
  exact slice_head (length_encode _ _)

theorem slice_command : slice (eventBytes e pad upper) 4 2 = encode 2 e.command.toNat := by
  simp [eventBytes, slice_skip, slice_head]

theorem slice_tool : slice (eventBytes e pad upper) 6 1 = [e.tool] := by
  simp only [eventBytes, List.append_assoc]
  rw [slice_skip (by simp), slice_skip (by simp), length_encode, length_encode]
  rfl

theorem slice_rqstId : slice (eventBytes e pad upper) 16 8 = encode 8 e.rqstId.toNat := by
  simp [eventBytes, slice_skip, slice_skip_cons, slice_head]

theorem slice_metric : slice (eventBytes e pad upper) 24 8 = metricBytes upper e.metric := by
  simp [eventBytes, slice_skip, slice_skip_cons, slice_head]

theorem slice_task : slice (eventBytes e pad upper) 32 16 = e.task.1 := by
  simp [eventBytes, slice_skip, slice_skip_cons, slice_all, e.task.2]

end Fields

theorem field_eq {data : List UInt8} {offset size v : ℕ} (h : slice data offset size = encode size v)
    (hv : v < 256 ^ size) : field data offset size = v := by
  rw [field, h, decode_encode hv]

theorem field_mod (data : List UInt8) (offset : ℕ) (h : offset + 8 ≤ data.length) :
    field data offset 8 % 2 ^ 32 = field data offset 4 := by
  have hlength : (slice data offset 4).length = 4 := by
    rw [slice, List.length_take, List.length_drop]
    omega
  have hsplit : slice data offset 8 = slice data offset 4 ++ slice data (offset + 4) 4 := by
    rw [slice, slice, slice, ← List.drop_drop, ← List.take_add]
  have hlow := decode_lt (slice data offset 4)
  rw [hlength] at hlow
  rw [field, field, hsplit, decode_append, hlength]
  omega

theorem field_lt (data : List UInt8) (offset size : ℕ) : field data offset size < 256 ^ size := by
  refine (decode_lt _).trans_le (Nat.pow_le_pow_right (by decide) ?_)
  exact List.length_take_le _ _

theorem int32Field_eq (data : List UInt8) (offset : ℕ) : int32Field data offset =
    if field data offset 4 < 2 ^ 31 then (field data offset 4 : ℤ)
    else (field data offset 4 : ℤ) - 2 ^ 32 := by
  have hlt : field data offset 4 < 2 ^ 32 := field_lt data offset 4
  rw [int32Field, Int32.toInt_ofNat', Int.bmod_def, Int32.size]
  split <;> split <;> omega

/-- The sign bit of a signed field is the difference between its two readings. -/
theorem int32Field_eq_iff (data : List UInt8) (offset : ℕ) :
    int32Field data offset = field data offset 4 ↔ field data offset 4 < 2 ^ 31 := by
  rw [int32Field_eq]
  split
  next h => exact iff_of_true rfl h
  next h => exact iff_of_false (by omega) h

theorem int32Field_emod (data : List UInt8) (offset : ℕ) :
    int32Field data offset % 2 ^ 32 = field data offset 4 := by
  have hlt : field data offset 4 < 2 ^ 32 := field_lt data offset 4
  rw [int32Field_eq]
  split <;> omega

theorem untilNul_untilNul (bs : List UInt8) : untilNul (untilNul bs) = untilNul bs :=
  List.takeWhile_idem

theorem untilNul_concat (bs : List UInt8) : untilNul (bs ++ [0]) = untilNul bs := by
  rw [untilNul, List.takeWhile_append]
  split
  next hall =>
      rw [List.takeWhile_cons_of_neg (by decide), List.append_nil]
      exact ((List.takeWhile_prefix _).eq_of_length hall).symm
  next => rfl

theorem untilNul_dropNuls (bs : List UInt8) : untilNul (dropNuls bs) = untilNul bs := by
  induction bs using List.reverseRecOn with
  | nil => rfl
  | append_singleton bs b ih =>
      rw [dropNuls, List.rdropWhile_concat]
      split
      next hb =>
          rw [of_decide_eq_true hb, untilNul_concat]
          exact ih
      next => rfl

theorem dropNuls_eq_iff {b : UInt8} (hb : b ≠ 0) (bs : List UInt8) (h : bs.length = 1) :
    dropNuls bs = [b] ↔ bs = [b] := by
  obtain ⟨a, rfl⟩ := List.length_eq_one_iff.mp h
  unfold dropNuls
  by_cases ha : a = 0
  · subst ha
    simp [List.rdropWhile, hb.symm]
  · simp [List.rdropWhile, ha]

/-- On whatever bytes, the consumers print the same line unless a sign bit is set in the
process id or in the return value of an nfsiosnoop record. -/
theorem handleEvent_eq_readEntry_iff (decode : List UInt8 → String) {data : List UInt8}
    (hsize : sizeofEvent ≤ data.length) :
    handleEvent decode data = some (readEntry decode data) ↔
      field data 0 4 < 2 ^ 31 ∧ (slice data 6 1 = [11] → field data 24 4 < 2 ^ 31) := by
  have htool : (slice data 6 1).length = 1 := by
    rw [slice, List.length_take, List.length_drop]
    simp only [sizeofEvent] at hsize
    omega
  have hlow : (field data 24 8 &&& 0xffffffff) = field data 24 4 := by
    rw [← field_mod data 24 (le_trans (by decide) hsize)]
    exact Nat.and_two_pow_sub_one_eq_mod _ 32
  have hsmb := @dropNuls_eq_iff 1 (by decide) _ htool
  have hnfs := @dropNuls_eq_iff 11 (by decide) _ htool
  rw [handleEvent, if_neg (not_lt.mpr hsize), readEntry]
  simp only [hsmb, hnfs, hlow, int32Field_emod, untilNul_untilNul, untilNul_dropNuls,
    Option.some.injEq, Line.mk.injEq, true_and]
  rw [eq_comm, int32Field_eq_iff]
  refine and_congr_right fun _ => ?_
  split_ifs with h h'
  · exact iff_of_true rfl fun h' => absurd (h.symm.trans h') (by decide)
  · rw [Report.error.injEq, int32Field_eq_iff, imp_iff_right h']
  · exact iff_of_true rfl fun h'' => absurd h'' h'

theorem slice_take {data : List UInt8} {offset size k : ℕ} (h : k ≤ size) :
    slice data offset k = (slice data offset size).take k := by
  rw [slice, slice, List.take_take, min_eq_left h]

theorem field_retval {e : Event} {v : Int32} (h : e.metric = .retval v) (pad : UInt8)
    (upper : UInt32) : field (eventBytes e pad upper) 24 4 = v.toUInt32.toNat := by
  refine field_eq ?_ v.toUInt32.toNat_lt
  rw [@slice_take _ _ 8 4 (by decide), slice_metric, h, metricBytes,
    List.take_left' (length_encode _ _)]

theorem field_latencyNs {e : Event} {v : UInt64} (h : e.metric = .latencyNs v) (pad : UInt8)
    (upper : UInt32) : field (eventBytes e pad upper) 24 8 = v.toNat := by
  refine field_eq ?_ v.toNat_lt
  rw [slice_metric, h, metricBytes]

theorem toInt_eq_cond (v : Int32) : v.toInt =
    if v.toUInt32.toNat < 2 ^ 31 then (v.toUInt32.toNat : ℤ)
    else (v.toUInt32.toNat : ℤ) - 2 ^ 32 := by
  have hsign : v.toInt = v.toBitVec.toInt := rfl
  have hnat : v.toUInt32.toNat = v.toBitVec.toNat := rfl
  rw [hsign, hnat, BitVec.toInt_eq_toNat_cond]
  split <;> split <;> omega

theorem int32Field_retval {e : Event} {v : Int32} (h : e.metric = .retval v) (pad : UInt8)
    (upper : UInt32) : int32Field (eventBytes e pad upper) 24 = v.toInt := by
  rw [int32Field_eq, field_retval h, toInt_eq_cond]

theorem handleEvent_report (decode : List UInt8 → String) {e : Event} (h : Shaped e) (pad : UInt8)
    (upper : UInt32) :
    (handleEvent decode (eventBytes e pad upper)).map Line.report = some (written e) := by
  rw [handleEvent, if_neg (length_eventBytes e pad upper).not_lt]
  simp only [slice_tool, Option.map_some, Option.some.injEq, List.cons.injEq, and_true]
  cases h with
  | slower v htool hmetric =>
      have hsmb : e.tool ≠ 1 := by rcases htool with h | h <;> rw [h] <;> decide
      have hnfs : e.tool ≠ 11 := by rcases htool with h | h <;> rw [h] <;> decide
      rw [if_neg hsmb, if_neg hnfs, field_latencyNs hmetric, written, hmetric]
  | iosnoop v htool hmetric =>
      rw [int32Field_emod, field_retval hmetric, int32Field_retval hmetric, written, hmetric]
      rcases htool with h | h
      · rw [if_pos (show e.tool = 1 from h)]
        exact (if_pos h).symm
      · rw [if_neg (show e.tool ≠ 1 by rw [h]; decide), if_pos (show e.tool = 11 from h)]
        exact (if_neg (by rw [h]; decide)).symm

theorem int32_neg_iff (v : Int32) : v.toInt < 0 ↔ ¬ v.toUInt32.toNat < 2 ^ 31 := by
  have hlt := v.toUInt32.toNat_lt
  rw [toInt_eq_cond]
  split <;> omega

/-- The sign bit of the word at offset 24 decides for an nfsiosnoop record. -/
theorem negativeError_iff {e : Event} (h : Shaped e) (pad : UInt8) (upper : UInt32) :
    NegativeError e ↔
      e.tool = nfsiosnoop ∧ ¬ field (eventBytes e pad upper) 24 4 < 2 ^ 31 := by
  refine and_congr_right fun htool => ?_
  cases h with
  | slower v hslow hmetric =>
      rw [htool] at hslow
      exact absurd hslow (by decide)
  | iosnoop v hio hmetric =>
      rw [field_retval hmetric, ← int32_neg_iff, hmetric]
      simp

/-- Below the sign bit of the process id, both consumers print the same line of what
the producer wrote, whatever the unwritten bytes hold, except for a negative NFS error. -/
theorem decodedAlike_iff (decode : List UInt8 → String) (e : Event) (h : Produced e)
    (hpid : e.pid.toNat < 2 ^ 31) (pad : UInt8) (upper : UInt32) :
    DecodedAlike decode e (eventBytes e pad upper) ↔ ¬ NegativeError e := by
  let data := eventBytes e pad upper
  have hfield : field data 0 4 = e.pid.toNat := field_eq (slice_pid e pad upper) e.pid.toNat_lt
  have hwritten : (readEntry decode data).pid = e.pid.toNat ∧
      (readEntry decode data).cmd = e.command.toNat ∧
      (readEntry decode data).rqstId = e.rqstId.toNat ∧
      (readEntry decode data).task = decode (untilNul e.task.1) := by
    refine ⟨?_, ?_, ?_, ?_⟩
    · rw [readEntry, (int32Field_eq_iff data 0).mpr (hfield ▸ hpid), hfield]
    · exact congrArg Nat.cast (field_eq (slice_command e pad upper) e.command.toNat_lt)
    · exact congrArg Nat.cast (field_eq (slice_rqstId e pad upper) e.rqstId.toNat_lt)
    · rw [readEntry, slice_task, untilNul_dropNuls]
  have htool : slice data 6 1 = [11] ↔ e.tool = nfsiosnoop := by
    rw [slice_tool]
    exact ⟨fun h => (List.cons.inj h).1, fun h => by rw [h]; rfl⟩
  rw [DecodedAlike, and_iff_left hwritten,
    handleEvent_eq_readEntry_iff decode (length_eventBytes e pad upper).ge, hfield,
    and_iff_right hpid, negativeError_iff h.shaped pad upper, htool, not_and, not_not]

/-- A response with an XDR status. -/
def xdrStatus (error : UInt64) : ErrorTracers.Response × Fill :=
  (.nfs4XdrStatus ⟨0, Buffer.zero 16, 5⟩ 1 4 error, ⟨true, 0, 0⟩)

/-- What `decode` makes of ASCII bytes. -/
def ascii (bs : List UInt8) : String := String.ofList (bs.map fun b => Char.ofNat b.toNat)

theorem decodedAlike_iff_stale :
    ∃ e, Produced e ∧ e.tool = nfsiosnoop ∧
      (DecodedAlike ascii e (eventBytes e 0xff 0xffffffff) ↔ ¬ NegativeError e) := by
  obtain ⟨s, hs⟩ : ∃ s, ErrorTracers.handle ErrorTracers.oneCommand 0 (xdrStatus 10025) = some s ∧
      s.event.tool = nfsiosnoop ∧ s.event.pid.toNat < 2 ^ 31 := ⟨_, rfl, by decide, by decide⟩
  exact ⟨s.event, .iosnoop hs.1, hs.2.1,
    decodedAlike_iff ascii s.event (.iosnoop hs.1) hs.2.2 0xff 0xffffffff⟩

theorem decodedAlike_fails_highStatus :
    ¬ ∀ (e : Event) (pad : UInt8) (upper : UInt32), Produced e → e.pid.toNat < 2 ^ 31 →
      DecodedAlike ascii e (eventBytes e pad upper) := by
  intro h
  obtain ⟨s, hs, heq⟩ : ∃ s, ErrorTracers.handle ErrorTracers.oneCommand 0 (xdrStatus 0x80000000) =
      some s ∧ s.event = ErrorTracers.nfsEvent ⟨0, Buffer.zero 16, 5⟩ 4 1 (-2147483648) :=
    ⟨_, rfl, by decide⟩
  have halike := h s.event 0 0 (.iosnoop hs) (heq ▸ by decide)
  rw [heq] at halike
  exact absurd halike.1 (by decide +kernel)

end MonitoringTools.Consumers
