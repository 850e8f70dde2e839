import Mathlib.Data.List.TakeWhile
import MonitoringTools.CStrings
import MonitoringTools.ErrorTracers
import MonitoringTools.FileLines
import MonitoringTools.LittleEndian
import MonitoringTools.NfsslowerProbes
import MonitoringTools.StructLayout

/-!
# How nfsiosnoop chooses its program, and what that program reads

The record of the tracepoint has one more field in its header on some kernels. The loader
finds out from the format file and leaves on the program whose structure has that field
too; without the tracepoint it leaves on one of the two probes of `rpc_exit_task`.
-/
namespace MonitoringTools.NfsHooks
open BpfHelpers CStrings DiagEvents ErrorTracers FileLines StructLayout

structure System where
  /-- `access` for reading. -/
  access : CString → Bool
  /-- The contents of a file that opens. -/
  fopen : CString → Option CString
  /-- `fentry_can_attach` for a function of a module. -/
  fentryCanAttach : CString → CString → Bool

def System.tracepointExists (sys : System) (category name : CString) : Bool :=
  let path := cstr "/sys/kernel/tracing/events/" ++ category ++ cstr "/" ++ name ++ cstr "/id"
  if 256 ≤ path.length then false
  else if sys.access path then true
  else
    let path := cstr "/sys/kernel/debug/tracing/events/" ++ category ++ cstr "/" ++ name ++
      cstr "/id"
    if 256 ≤ path.length then false else sys.access path

def formatPaths : List CString :=
  [cstr "/sys/kernel/tracing/events/nfs4/nfs4_xdr_status/format",
    cstr "/sys/kernel/debug/tracing/events/nfs4/nfs4_xdr_status/format"]

def lazyCount : CString := cstr "common_preempt_lazy_count"

def newline (c : Char) : Bool := c == '\n'

/-- The loop over the lines of one file; a read fills at most 255 characters. -/
def mentionsLazyCount (text : CString) : Bool :=
  (pieces newline 255 text).any fun line => strstr (line.takeWhile (· ≠ '\x00')) lazyCount

def System.tracepointHasLazyPreempt (sys : System) : Bool :=
  formatPaths.any fun path =>
    match sys.fopen path with
    | none => false
    | some text => mentionsLazyCount text

inductive Program where
  | traceNfs4XdrStatus | traceNfs4XdrStatusLazy | rpcDoneExit | rpcDoneKprobe
  deriving DecidableEq, Repr

def programs : List Program :=
  [.traceNfs4XdrStatus, .traceNfs4XdrStatusLazy, .rpcDoneExit, .rpcDoneKprobe]

/-- The programs whose load and attachment `main` switches off. -/
def System.switchedOff (sys : System) : List Program :=
  if sys.tracepointExists (cstr "nfs4") (cstr "nfs4_xdr_status") then
    [if sys.tracepointHasLazyPreempt then .traceNfs4XdrStatus else .traceNfs4XdrStatusLazy,
      .rpcDoneExit, .rpcDoneKprobe]
  else if sys.fentryCanAttach (cstr "rpc_exit_task") (cstr "sunrpc") then
    [.traceNfs4XdrStatus, .traceNfs4XdrStatusLazy, .rpcDoneKprobe]
  else [.traceNfs4XdrStatus, .traceNfs4XdrStatusLazy, .rpcDoneExit]

def System.left (sys : System) : List Program := programs.filter (· ∉ sys.switchedOff)

/-- `struct nfs4_xdr_status_args`. -/
def nfs4XdrStatusArgs : List Field := [⟨8, 8⟩, ⟨4, 4⟩, ⟨4, 4⟩, ⟨4, 4⟩, ⟨4, 4⟩, ⟨8, 8⟩]

/-- `struct nfs4_xdr_status_lazy_args`. -/
def nfs4XdrStatusLazyArgs : List Field :=
  [⟨8, 8⟩, ⟨4, 4⟩, ⟨4, 4⟩, ⟨4, 4⟩, ⟨4, 4⟩, ⟨4, 4⟩, ⟨8, 8⟩]

/-- A member of a structure in memory, by its place. -/
def member (fields : List Field) (i : ℕ) (data : List UInt8) : ℕ :=
  match (offsets fields)[i]?, fields[i]? with
  | some offset, some f => LittleEndian.decode (read data offset f.size)
  | _, _ => 0

def traceNfs4XdrStatus (f : Filters Int32) (w : Int32) (c : DiagContext) (ring : Fill)
    (ctx : List UInt8) : Option Submission :=
  emitXdrStatus f w c ring (.ofNat (member nfs4XdrStatusArgs 3 ctx))
    (UInt32.ofNat (member nfs4XdrStatusArgs 4 ctx)).toUInt16
    (.ofNat (member nfs4XdrStatusArgs 5 ctx))

def traceNfs4XdrStatusLazy (f : Filters Int32) (w : Int32) (c : DiagContext) (ring : Fill)
    (ctx : List UInt8) : Option Submission :=
  emitXdrStatus f w c ring (.ofNat (member nfs4XdrStatusLazyArgs 4 ctx))
    (UInt32.ofNat (member nfs4XdrStatusLazyArgs 5 ctx)).toUInt16
    (.ofNat (member nfs4XdrStatusLazyArgs 6 ctx))

/-- The kernel: the fields that stand in a record before those of the tracepoint. -/
structure Kernel where
  sys : System
  common : List Field
  lazyPreempt : Bool

/-- One more field moves those of the tracepoint by four bytes. -/
structure Kernel.StandardHeader (k : Kernel) : Prop where
  aligned : ∀ f ∈ k.common, 0 < f.align
  ends : alignUp (endFrom 0 k.common) 4 = if k.lazyPreempt then 12 else 8

structure XdrStatus where
  common : List (List UInt8)
  taskId : UInt32
  clientId : UInt32
  xid : UInt32
  op : UInt32
  error : UInt64

def payload : List Field := [⟨4, 4⟩, ⟨4, 4⟩, ⟨4, 4⟩, ⟨4, 4⟩, ⟨8, 8⟩]

def XdrStatus.values (r : XdrStatus) : List (List UInt8) :=
  [LittleEndian.encode 4 r.taskId.toNat, LittleEndian.encode 4 r.clientId.toNat,
    LittleEndian.encode 4 r.xid.toNat, LittleEndian.encode 4 r.op.toNat,
    LittleEndian.encode 8 r.error.toNat]

/-- The record in memory; the gaps hold what was there. -/
def Kernel.record (k : Kernel) (old : ℕ → UInt8) (r : XdrStatus) : List UInt8 :=
  contents old (k.common ++ payload) (r.common ++ r.values)

/-- What happens in the kernel, whichever programs watch. -/
inductive Occurrence where
  | nfs4XdrStatus (c : DiagContext) (r : XdrStatus) (old : ℕ → UInt8)
  | rpcExitTask (c : DiagContext) (task : RpcTask)

def Kernel.Occurs (k : Kernel) : Occurrence → Prop
  | .nfs4XdrStatus _ r _ => Fits k.common r.common
  | .rpcExitTask _ _ => True

/-- What a program that is on does at an occurrence of its hook. -/
def Kernel.fire (k : Kernel) (f : Filters Int32) (w : Int32) (o : Occurrence) (ring : Fill) :
    Program → Option Submission
  | .traceNfs4XdrStatus =>
      match o with
      | .nfs4XdrStatus c r old => NfsHooks.traceNfs4XdrStatus f w c ring (k.record old r)
      | .rpcExitTask _ _ => none
  | .traceNfs4XdrStatusLazy =>
      match o with
      | .nfs4XdrStatus c r old => NfsHooks.traceNfs4XdrStatusLazy f w c ring (k.record old r)
      | .rpcExitTask _ _ => none
  | .rpcDoneExit =>
      match o with
      | .nfs4XdrStatus _ _ _ => none
      | .rpcExitTask c task => probeEntry f w c ring task
  | .rpcDoneKprobe =>
      match o with
      | .nfs4XdrStatus _ _ _ => none
      | .rpcExitTask c task => probeEntry f w c ring task

/-- Every program that is on runs; `os` is what happens, with the ring at each time. -/
def Kernel.submissions (k : Kernel) (cfg : Config) (w : Int32) (os : List (Occurrence × Fill)) :
    List Submission :=
  os.flatMap fun o => k.sys.left.filterMap (k.fire cfg.nfs w o.1 o.2)

def System.hasTracepoint (sys : System) : Bool :=
  sys.tracepointExists (cstr "nfs4") (cstr "nfs4_xdr_status")

/-- The response that an occurrence is for the tool: it watches one hook alone. -/
def Kernel.response (k : Kernel) : Occurrence → Option Response
  | .nfs4XdrStatus c r _ =>
      if k.sys.hasTracepoint then some (.nfs4XdrStatus c r.xid r.op r.error) else none
  | .rpcExitTask c task => if k.sys.hasTracepoint then none else some (.rpcExitTask c task)

/-- One report for each response, by the rules for reports and with the values of the kernel. -/
def Kernel.expected (k : Kernel) (cfg : Config) (w : Int32) (os : List (Occurrence × Fill)) :
    List Submission :=
  os.filterMap fun o => (k.response o.1).bind fun r => handle cfg w (r, o.2)

/-- A format file as the kernel writes it: a line that names the field starts with it. -/
structure FormatText (lazyPreempt : Bool) (text : CString) : Prop where
  unbroken : '\x00' ∉ text
  near : ∀ line ∈ lines newline text, lazyCount <:+: line → lazyCount <:+: line.take 255
  names : lazyCount <:+: text ↔ lazyPreempt = true

/-- The format files that can be opened are those of the kernel. -/
def Kernel.Described (k : Kernel) : Prop :=
  ∀ path ∈ formatPaths, ∀ text, k.sys.fopen path = some text → FormatText k.lazyPreempt text

theorem newline_of_mem_lazyCount : ∀ c ∈ lazyCount, newline c = false := by
  have hall : lazyCount.all (fun c => !newline c) = true := by decide +kernel
  simpa using hall

theorem mentionsLazyCount_iff {lazyPreempt : Bool} {text : CString}
    (h : FormatText lazyPreempt text) : mentionsLazyCount text = true ↔ lazyPreempt = true := by
  rw [← h.names, mentionsLazyCount, List.any_eq_true,
    ← exists_piece_containing_iff (Nat.succ_pos 254) (by decide) newline_of_mem_lazyCount h.near]
  refine exists_congr fun piece => and_congr_right fun hpiece => ?_
  have hinfix := infix_of_mem_pieces (Nat.succ_pos 254) hpiece
  have hwhole : piece.takeWhile (· ≠ '\x00') = piece := by
    rw [List.takeWhile_eq_self_iff]
    intro c hc
    have hne : c ≠ '\x00' := fun h' => h.unbroken (h' ▸ hinfix.subset hc)
    simpa using hne
  rw [hwhole, strstr_iff]

theorem tracepointHasLazyPreempt_iff {k : Kernel} (h : k.Described) :
    k.sys.tracepointHasLazyPreempt = true ↔
      k.lazyPreempt = true ∧ ∃ path ∈ formatPaths, (k.sys.fopen path).isSome = true := by
  rw [System.tracepointHasLazyPreempt, List.any_eq_true, ← exists_and_left]
  refine exists_congr fun path => ?_
  rw [and_left_comm]
  refine and_congr_right fun hpath => ?_
  cases htext : k.sys.fopen path with
  | none => simp
  | some text => simpa using mentionsLazyCount_iff (h path hpath text htext)

section Record
variable {k : Kernel} {r : XdrStatus} {old : ℕ → UInt8}

/-- Where the fields of the tracepoint stand. -/
def payloadOffsets (lazyPreempt : Bool) : List ℕ :=
  if lazyPreempt then [12, 16, 20, 24, 32] else [8, 12, 16, 20, 24]

theorem offsetsFrom_payload (h : k.StandardHeader) :
    offsetsFrom (endFrom 0 k.common) payload = payloadOffsets k.lazyPreempt := by
  have hends := h.ends
  rw [payload, offsetsFrom, hends]
  cases k.lazyPreempt <;> rfl

theorem record_read (h : k.StandardHeader) (hr : Fits k.common r.common) {i o : ℕ}
    {v : List UInt8} (ho : (payloadOffsets k.lazyPreempt)[i]? = some o)
    (hv : r.values[i]? = some v) : read (k.record old r) o v.length = v := by
  have hfits : Fits (k.common ++ payload) (r.common ++ r.values) := by
    refine List.rel_append hr ?_
    simp [payload, XdrStatus.values]
  have hlength : r.common.length = k.common.length := hr.length_eq.symm
  rw [← offsetsFrom_payload h] at ho
  refine @read_contents _ old _ _ hfits (k.common.length + i) o v ?_ ?_
  · rw [offsets, offsetsFrom_append, List.getElem?_append_right (by simp)]
    simpa using ho
  · rw [List.getElem?_append_right (by omega), hlength]
    simpa using hv

theorem record_member (h : k.StandardHeader) (hr : Fits k.common r.common) {i o n v : ℕ}
    (ho : (payloadOffsets k.lazyPreempt)[i]? = some o)
    (hv : r.values[i]? = some (LittleEndian.encode n v)) (hlt : v < 256 ^ n) :
    LittleEndian.decode (read (k.record old r) o n) = v := by
  have hread := @record_read k r old h hr i o _ ho hv
  rw [LittleEndian.length_encode] at hread
  rw [hread, LittleEndian.decode_encode hlt]

/-- The structure without the field fits the records without it. -/
theorem traceNfs4XdrStatus_record (h : k.StandardHeader) (hr : Fits k.common r.common)
    (hlazy : k.lazyPreempt = false) (f : Filters Int32) (w : Int32) (c : DiagContext)
    (ring : Fill) : traceNfs4XdrStatus f w c ring (k.record old r) =
      emitXdrStatus f w c ring r.xid r.op.toUInt16 r.error := by
  have hxid : member nfs4XdrStatusArgs 3 (k.record old r) = r.xid.toNat :=
    record_member (i := 2) h hr (by rw [hlazy]; rfl) rfl r.xid.toNat_lt
  have hop : member nfs4XdrStatusArgs 4 (k.record old r) = r.op.toNat :=
    record_member (i := 3) h hr (by rw [hlazy]; rfl) rfl r.op.toNat_lt
  have herror : member nfs4XdrStatusArgs 5 (k.record old r) = r.error.toNat :=
    record_member (i := 4) h hr (by rw [hlazy]; rfl) rfl r.error.toNat_lt
  rw [traceNfs4XdrStatus, hxid, hop, herror, UInt32.ofNat_toNat, UInt32.ofNat_toNat,
    UInt64.ofNat_toNat]

theorem traceNfs4XdrStatusLazy_record (h : k.StandardHeader) (hr : Fits k.common r.common)
    (hlazy : k.lazyPreempt = true) (f : Filters Int32) (w : Int32) (c : DiagContext)
    (ring : Fill) : traceNfs4XdrStatusLazy f w c ring (k.record old r) =
      emitXdrStatus f w c ring r.xid r.op.toUInt16 r.error := by
  have hxid : member nfs4XdrStatusLazyArgs 4 (k.record old r) = r.xid.toNat :=
    record_member (i := 2) h hr (by rw [hlazy]; rfl) rfl r.xid.toNat_lt
  have hop : member nfs4XdrStatusLazyArgs 5 (k.record old r) = r.op.toNat :=
    record_member (i := 3) h hr (by rw [hlazy]; rfl) rfl r.op.toNat_lt
  have herror : member nfs4XdrStatusLazyArgs 6 (k.record old r) = r.error.toNat :=
    record_member (i := 4) h hr (by rw [hlazy]; rfl) rfl r.error.toNat_lt
  rw [traceNfs4XdrStatusLazy, hxid, hop, herror, UInt32.ofNat_toNat, UInt32.ofNat_toNat,
    UInt64.ofNat_toNat]

/-- The structure without the field takes the client for the request where there is one. -/
theorem traceNfs4XdrStatus_client (h : k.StandardHeader) (hr : Fits k.common r.common)
    (hlazy : k.lazyPreempt = true) {f : Filters Int32} {w : Int32} {c : DiagContext}
    {ring : Fill} {submission : Submission}
    (hsubmits : traceNfs4XdrStatus f w c ring (k.record old r) = some submission) :
    submission.event.rqstId = r.clientId.toUInt64 := by
  have hxid : member nfs4XdrStatusArgs 3 (k.record old r) = r.clientId.toNat :=
    record_member (i := 1) h hr (by rw [hlazy]; rfl) rfl r.clientId.toNat_lt
  rw [traceNfs4XdrStatus, hxid, UInt32.ofNat_toNat] at hsubmits
  unfold emitXdrStatus submitEvent at hsubmits
  split_ifs at hsubmits
  cases hsubmits
  rfl

end Record

/-- The program that stays on. -/
def System.chosen (sys : System) : Program :=
  if sys.hasTracepoint then
    if sys.tracepointHasLazyPreempt then .traceNfs4XdrStatusLazy else .traceNfs4XdrStatus
  else if sys.fentryCanAttach (cstr "rpc_exit_task") (cstr "sunrpc") then .rpcDoneExit
  else .rpcDoneKprobe

theorem left_eq (sys : System) : sys.left = [sys.chosen] := by
  unfold System.left System.switchedOff System.chosen System.hasTracepoint
  cases sys.tracepointExists (cstr "nfs4") (cstr "nfs4_xdr_status") with
  | true => cases sys.tracepointHasLazyPreempt <;> rfl
  | false => cases sys.fentryCanAttach (cstr "rpc_exit_task") (cstr "sunrpc") <;> rfl

theorem fire_chosen {k : Kernel} (h : k.StandardHeader)
    (hdetects : k.sys.hasTracepoint = true → k.sys.tracepointHasLazyPreempt = k.lazyPreempt)
    (cfg : Config) (w : Int32) {o : Occurrence} (ho : k.Occurs o) (ring : Fill) :
    k.fire cfg.nfs w o ring k.sys.chosen =
      (k.response o).bind fun r => handle cfg w (r, ring) := by
  unfold System.chosen
  cases htracepoint : k.sys.hasTracepoint with
  | false =>
      cases o with
      | nfs4XdrStatus c r old =>
          simp only [Kernel.response, htracepoint, Bool.false_eq_true, if_false, Option.bind_none]
          split <;> rfl
      | rpcExitTask c task =>
          simp only [Kernel.response, htracepoint, Bool.false_eq_true, if_false, Option.bind_some]
          split <;> rfl
  | true =>
      simp only [if_true, hdetects htracepoint]
      cases o with
      | nfs4XdrStatus c r old =>
          simp only [Kernel.response, htracepoint, if_true, Option.bind_some, handle]
          cases hlazy : k.lazyPreempt with
          | false => exact traceNfs4XdrStatus_record h ho hlazy cfg.nfs w c ring
          | true => exact traceNfs4XdrStatusLazy_record h ho hlazy cfg.nfs w c ring
      | rpcExitTask c task =>
          simp only [Kernel.response, htracepoint, if_true, Option.bind_none]
          split <;> rfl

theorem filterMap_singleton {α β : Type*} (f : α → Option β) (a : α) :
    [a].filterMap f = (f a).toList := by
  cases h : f a <;> simp [h]

theorem submissions_eq {k : Kernel} (h : k.StandardHeader)
    (hdetects : k.sys.hasTracepoint = true → k.sys.tracepointHasLazyPreempt = k.lazyPreempt)
    (cfg : Config) (w : Int32) {os : List (Occurrence × Fill)} (hos : ∀ o ∈ os, k.Occurs o.1) :
    k.submissions cfg w os = k.expected cfg w os := by
  rw [Kernel.submissions, Kernel.expected, List.filterMap_eq_flatMap_toList]
  refine List.flatMap_congr fun o ho => ?_
  rw [left_eq, filterMap_singleton, fire_chosen h hdetects cfg w (hos o ho)]

/-- A failed response to the first client, in a record over zeros. -/
def Kernel.clientRecord (k : Kernel) : XdrStatus :=
  ⟨k.common.map fun f => List.replicate f.size 0, 0, 1, 0, 4, 1⟩

theorem fits_clientRecord {k : Kernel} (h : k.StandardHeader) :
    Fits k.common k.clientRecord.common := by
  refine List.forall₂_map_right_iff.mpr (List.forall₂_same.mpr fun f hf => ?_)
  exact ⟨h.aligned f hf, List.length_replicate⟩

/-- Undetected, the field makes the client stand for the request. -/
theorem submissions_client {k : Kernel} (h : k.StandardHeader) (hlazy : k.lazyPreempt = true)
    (htracepoint : k.sys.hasTracepoint = true)
    (hdetected : k.sys.tracepointHasLazyPreempt = false) (c : DiagContext) :
    k.submissions oneCommand 0 [(.nfs4XdrStatus c k.clientRecord fun _ => 0, ⟨true, 0, 0⟩)] ≠
      k.expected oneCommand 0 [(.nfs4XdrStatus c k.clientRecord fun _ => 0, ⟨true, 0, 0⟩)] := by
  intro hsame
  have hchosen : k.sys.chosen = .traceNfs4XdrStatus := by
    simp [System.chosen, htracepoint, hdetected]
  simp only [Kernel.submissions, Kernel.expected, left_eq, filterMap_singleton, hchosen,
    List.flatMap_singleton, Kernel.response, htracepoint, if_true, Option.bind_some] at hsame
  have hids := congrArg (List.map fun submission => submission.event.rqstId) hsame
  simp only [Kernel.fire] at hids
  cases hsubmits : traceNfs4XdrStatus oneCommand.nfs 0 c ⟨true, 0, 0⟩
      (k.record (fun _ => 0) k.clientRecord) with
  | none =>
      rw [hsubmits] at hids
      cases hids
  | some submission =>
      have hclient := traceNfs4XdrStatus_client h (fits_clientRecord h) hlazy hsubmits
      rw [hsubmits] at hids
      simp only [Option.toList_some, List.map_singleton, hclient] at hids
      have hzero : (1 : UInt32).toUInt64 = 0 := (List.cons.inj (hids.trans rfl)).1
      exact absurd hzero (by decide)

/-- nfsiosnoop reports what it should, over all that happens, exactly when it can open a
format file of the tracepoint if the records have the field. -/
theorem submissions_expected_iff {k : Kernel} (h : k.StandardHeader) (hfiles : k.Described) :
    (∀ cfg w os, (∀ o ∈ os, k.Occurs o.1) → k.submissions cfg w os = k.expected cfg w os) ↔
      (k.sys.hasTracepoint = true → k.lazyPreempt = true →
        ∃ path ∈ formatPaths, (k.sys.fopen path).isSome = true) := by
  have hdetected := tracepointHasLazyPreempt_iff hfiles
  constructor
  · intro hall htracepoint hlazy
    by_contra hclosed
    have hundetected : k.sys.tracepointHasLazyPreempt = false :=
      Bool.eq_false_iff.mpr fun hd => hclosed (hdetected.mp hd).2
    apply submissions_client h hlazy htracepoint hundetected ⟨7, Buffer.zero 16, 1000⟩
    apply hall
    exact List.forall_mem_singleton.mpr (fits_clientRecord h)
  · intro hopens cfg w os hos
    refine submissions_eq h (fun htracepoint => ?_) cfg w hos
    rw [Bool.eq_iff_iff, hdetected]
    exact ⟨fun hd => hd.1, fun hlazy => ⟨hlazy, hopens htracepoint hlazy⟩⟩

/-- Some lines of a format file, with the field in the header. -/
def lazyFormat : CString :=
  cstr "name: nfs4_xdr_status\nformat:\n\tfield:unsigned short common_type;\toffset:0;\n" ++
    cstr "\tfield:unsigned char common_preempt_lazy_count;\toffset:8;\tsize:1;\n"

/-- A kernel whose header ends with one more character. -/
def lazyKernel : Kernel where
  sys :=
    { access := fun path => path = cstr "/sys/kernel/debug/tracing/events/nfs4/nfs4_xdr_status/id"
      fopen := fun path =>
        if path = cstr "/sys/kernel/debug/tracing/events/nfs4/nfs4_xdr_status/format" then
          some lazyFormat
        else none
      fentryCanAttach := fun _ _ => true }
  common := [⟨2, 2⟩, ⟨1, 1⟩, ⟨1, 1⟩, ⟨4, 4⟩, ⟨1, 1⟩]
  lazyPreempt := true

theorem lazyKernel_described : lazyKernel.Described := by
  intro path hpath text htext
  have hformat : FormatText true lazyFormat := by
    refine ⟨by decide +kernel, fun line hline hinfix => ?_, ?_⟩
    · have hall : ((lines newline lazyFormat).all fun line =>
          !strstr line lazyCount || strstr (line.take 255) lazyCount) = true := by
        decide +kernel
      have h := List.all_eq_true.mp hall line hline
      rw [(strstr_iff line lazyCount).mpr hinfix] at h
      exact (strstr_iff _ _).mp h
    · rw [← strstr_iff]
      decide +kernel
  simp only [lazyKernel] at htext
  split at htext
  · exact Option.some.inj htext ▸ hformat
  · cases htext

theorem submissions_expected_iff_lazyKernel :
    lazyKernel.sys.chosen = .traceNfs4XdrStatusLazy ∧
      ∀ cfg w os, (∀ o ∈ os, lazyKernel.Occurs o.1) →
        lazyKernel.submissions cfg w os = lazyKernel.expected cfg w os :=
  ⟨by decide +kernel, (submissions_expected_iff ⟨by decide, by decide⟩ lazyKernel_described).mpr
    fun _ _ => by decide +kernel⟩

section Slow
open NfsslowerProbes

inductive SlowProgram where
  | nfs4SetupSequenceEntry | nfs4SetupSequenceKprobe | rpcDoneEntry | rpcDoneKprobe
  deriving DecidableEq, Repr

def slowPrograms : List SlowProgram :=
  [.nfs4SetupSequenceEntry, .nfs4SetupSequenceKprobe, .rpcDoneEntry, .rpcDoneKprobe]

/-- The programs that `main` of nfsslower switches off, one for each function. -/
def System.slowSwitchedOff (sys : System) : List SlowProgram :=
  [if sys.fentryCanAttach (cstr "nfs4_setup_sequence") (cstr "nfsv4") then
      .nfs4SetupSequenceKprobe
    else .nfs4SetupSequenceEntry,
    if sys.fentryCanAttach (cstr "rpc_exit_task") (cstr "sunrpc") then .rpcDoneKprobe
    else .rpcDoneEntry]

def System.slowLeft (sys : System) : List SlowProgram :=
  slowPrograms.filter (· ∉ sys.slowSwitchedOff)

def slowFire (ro : Rodata) (firing : Firing) (m : Maps) : SlowProgram → Maps
  | .nfs4SetupSequenceEntry | .nfs4SetupSequenceKprobe =>
      match firing with
      | .nfs4SetupSequence c room task => NfsslowerProbes.probeEntry m c room task
      | .rpcExitTask _ _ _ => m
  | .rpcDoneEntry | .rpcDoneKprobe =>
      match firing with
      | .nfs4SetupSequence _ _ _ => m
      | .rpcExitTask c ring task => probeExit ro m c ring task

/-- Whatever the kernel supports, each call of a function runs its probe once. -/
theorem slow_run_eq (sys : System) (ro : Rodata) (firings : List Firing) (m : Maps) :
    firings.foldl (fun m firing => sys.slowLeft.foldl (slowFire ro firing) m) m =
      firings.foldl (NfsslowerProbes.fire ro) m := by
  refine congrArg (fun step => firings.foldl step m) (funext fun m => funext fun firing => ?_)
  unfold System.slowLeft System.slowSwitchedOff
  cases sys.fentryCanAttach (cstr "nfs4_setup_sequence") (cstr "nfsv4") <;>
    cases sys.fentryCanAttach (cstr "rpc_exit_task") (cstr "sunrpc") <;> cases firing <;> rfl

end Slow

end MonitoringTools.NfsHooks
