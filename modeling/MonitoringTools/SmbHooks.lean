import MonitoringTools.AnsweredRequests
import MonitoringTools.RequestLatency
import MonitoringTools.SmbslowerSelection

/-!
# smbslower on the clients it supports

Clients differ in the layout of a `mid_q_entry` and in the name and the arguments of the
function that releases one. `main` selects programs by what the system tells about the
client, and these fire as the client works on its requests. If what the system tells is true
and the programs attach, then the tool reports the answered requests that are not excluded
and not faster than the minimum, each once, with its own command and message id, whichever
programs `main` has selected.
-/
namespace MonitoringTools.SmbHooks
open BpfHelpers DiagEvents CStrings SmbslowerProbes SmbslowerSelection SlowCommands
open RequestLatency AnsweredRequests

structure Layout where
  mid : ℕ
  command : ℕ
  refcount : ℕ
  deriving DecidableEq, Repr

/-- The release functions of the clients, in the order of the lookup. -/
def knownReleases : List (CString × Arguments) :=
  [(cstr "__release_mid", .kref), (cstr "__release_mid", .serverMid), (cstr "release_mid", .mid),
    (cstr "release_mid", .serverMid), (cstr "_cifs_mid_q_entry_release", .kref)]

structure Client where
  layout : Layout
  releaseFunc : CString
  releaseArguments : Arguments
  known : (releaseFunc, releaseArguments) ∈ knownReleases

def parameterCount : Arguments → ℤ
  | .serverMid => 2
  | .mid | .kref => 1

structure Request where
  addr : UInt64
  tid : UInt32
  sesid : UInt64
  cmd : UInt16
  mid : UInt64
  addr_ne : addr ≠ 0

def Request.args (q : Request) : Smb3CmdArgs := ⟨q.tid, q.sesid, q.cmd, q.mid⟩

structure Entry (l : Layout) where
  request : Request
  read16 : ℕ → UInt16
  read64 : ℕ → UInt64
  command_at : read16 l.command = request.cmd
  mid_at : read64 l.mid = request.mid

def Entry.midQEntry {l : Layout} (e : Entry l) : MidQEntry :=
  ⟨e.request.addr, e.read16, e.read64, l.command, l.mid⟩

/-- Reads through a null pointer fail and leave zeros. -/
def nullEntry (l : Layout) : MidQEntry := ⟨0, fun _ => 0, fun _ => 0, l.command, l.mid⟩

/-- What happens in the client at a place where smbslower may have a program. -/
inductive Occurrence (l : Layout) where
  | alloc (c : DiagContext) (room : Bool) (entry : Option (Entry l))
  | cmdEnter (c : DiagContext) (room : Bool) (q : Request)
  | cmdDone (c : DiagContext) (ring : Fill) (q : Request)
  | cmdErr (c : DiagContext) (ring : Fill) (q : Request)
  /-- The release function is called; `other` is in the register that is not the request's. -/
  | release (c : DiagContext) (ring : Fill) (other : UInt64) (q : Request)

def Occurrence.room {l : Layout} : Occurrence l → Bool
  | .alloc _ room _ | .cmdEnter _ room _ => room
  | .cmdDone _ ring _ | .cmdErr _ ring _ | .release _ ring _ _ => ring.room

/-- The registers with the first two arguments when a request is released. -/
def Client.parameters (k : Client) (other addr : UInt64) : UInt64 × UInt64 :=
  match k.releaseArguments with
  | .serverMid => (other, addr)
  | .mid => (addr, other)
  | .kref => (addr + UInt64.ofNat k.layout.refcount, other)

/-- The `mid_struct` that a release program works out from its arguments. -/
def midStruct (l : Layout) (parameters : UInt64 × UInt64) : Program → Option UInt64
  | .midReleaseKrefFentry | .midReleaseKrefKprobe | .midReleaseLegacyFentry
  | .midReleaseLegacyKprobe => some (parameters.1 - UInt64.ofNat l.refcount)
  | .midReleaseRhel810Kprobe | .midReleaseRhel810553134Kprobe => some (parameters.1 - 16)
  | .midReleaseSingleDirectFentry | .midReleaseSingleDirectKprobe => some parameters.1
  | .midReleaseDirectFentry | .midReleaseDirectKprobe => some parameters.2
  | _ => none

/-- How a program fires, if it is attached where something happens. -/
def fireAt (k : Client) (o : Occurrence k.layout) (p : Program) : Option SmbFiring :=
  match o with
  | .alloc c room entry =>
      let mid := entry.map Entry.midQEntry
      match p with
      | .midAllocFexit => some (.midAllocFexit c room (mid.getD (nullEntry k.layout)))
      | .midAllocKretprobe => some (.midAllocKretprobe c room mid)
      | .midAllocRhel810Kretprobe => some (.midAllocRhel810Kretprobe c room mid)
      | .midAllocRhel810553134Kretprobe => some (.midAllocRhel810553134Kretprobe c room mid)
      | _ => none
  | .cmdEnter c room q =>
      if p = .traceSmb3CmdEnter then some (.tracepoint (.enter c room q.args)) else none
  | .cmdDone c ring q =>
      if p = .traceSmb3CmdDone then some (.tracepoint (.done c ring q.args)) else none
  | .cmdErr c ring q =>
      if p = .traceSmb3CmdErr then some (.tracepoint (.err c ring q.args)) else none
  | .release c ring other q =>
      if target p = some k.releaseFunc then
        (midStruct k.layout (k.parameters other q.addr) p).map (.midRelease c ring)
      else none

def allocPrograms : List Program :=
  [.midAllocFexit, .midAllocKretprobe, .midAllocRhel810Kretprobe, .midAllocRhel810553134Kretprobe]

def programs : List Program := tracepointPrograms ++ allocPrograms ++ releasePrograms

def firings (k : Client) (s : Selection) (o : Occurrence k.layout) : List SmbFiring :=
  (programs.filter s.switches.autoload).filterMap (fireAt k o)

/-- When a request begins and ends: by the tracepoints of its command, or by the life of its
entry. -/
def Occurrence.phase {l : Layout} (tracepoints : Bool) :
    Occurrence l → Option (Phase Request DiagContext)
  | .alloc c _ entry => if tracepoints then none else entry.map fun e => .begins e.request c
  | .cmdEnter c _ q => if tracepoints then some (.begins q c) else none
  | .cmdDone c _ q | .cmdErr c _ q => if tracepoints then some (.ends q c) else none
  | .release c _ _ q => if tracepoints then none else some (.ends q c)

/-- The record of a request that begins. -/
def record (q : Request) (c : DiagContext) : SmbPartialEvent := ⟨q.cmd, c.ktime, q.mid⟩

/-- What tells the requests in flight apart. -/
def Request.key (tracepoints : Bool) (q : Request) : SmbTraceKey ⊕ UInt64 :=
  if tracepoints then .inl q.args.key else .inr q.addr

/-- The event of an answered request. -/
def event (a : Answer Request DiagContext) : Event where
  pid := a.finish.pid
  command := a.request.cmd
  tool := smbslower
  cmdEndTimeNs := a.finish.ktime
  rqstId := a.request.mid
  metric := .latencyNs (a.finish.ktime - a.start.ktime)
  task := a.finish.comm

/-- A request that the options ask for. -/
def reported (ro : Rodata) (denylist : HashMap UInt16 UInt8) (a : Answer Request DiagContext) :
    Bool :=
  (denylist.lookup a.request.cmd).isNone && ro.minLatNs ≤ a.finish.ktime - a.start.ktime

section Machine
variable {ro : Rodata} {m : Maps}

/-- What a completion reports of the record that it finds. -/
def emit (ro : Rodata) (c : DiagContext) (r : SmbPartialEvent) : Option Event :=
  if ro.minLatNs ≤ c.ktime - r.startNs then some (eventOf c r) else none

/-- The table operation of a firing, with its context. -/
def timed (f : SmbFiring) : Option (SmbOp × DiagContext) := f.op.map (·, smbContext f)

theorem completeTraceEvent_submissions {c : DiagContext} {ring : Fill} (key : SmbTraceKey)
    (hroom : ring.room = true) :
    (completeTraceEvent ro m c ring key).submissions.map Submission.event =
      m.submissions.map Submission.event ++
        ((m.traceTemp.lookup key).bind (emit ro c)).toList := by
  unfold completeTraceEvent
  cases m.traceTemp.lookup key with
  | none => simp
  | some record =>
      rw [List.map_append, Option.bind_some, emit, ← completion_event hroom]
      cases completion ro c ring record <;> rfl

theorem midAlloc_submissions (commandOffset midOffset : ℕ) (c : DiagContext) (room : Bool)
    (mid : MidQEntry) :
    (midAlloc commandOffset midOffset m c room mid).submissions = m.submissions := by
  simp only [midAlloc]
  split <;> rfl

theorem smbFire_submissions {f : SmbFiring} (hroom : smbRoom f = true) :
    (smbFire ro m f).submissions.map Submission.event = m.submissions.map Submission.event ++
      ((timed f).bind (report (emit ro) (smbTable m))).toList := by
  cases f with
  | tracepoint f =>
      cases f with
      | enter c room args =>
          have hsame : (traceSmb3CmdEnter m c room args).submissions = m.submissions := by
            unfold traceSmb3CmdEnter
            split <;> rfl
          exact (congrArg (List.map Submission.event) hsame).trans (List.append_nil _).symm
      | done c ring args | err c ring args => exact completeTraceEvent_submissions args.key hroom
  | midAllocFexit c room mid =>
      have hsame := @midAlloc_submissions m mid.commandOffset mid.midOffset c room mid
      exact (congrArg (List.map Submission.event) hsame).trans (List.append_nil _).symm
  | midAllocKretprobe c room mid | midAllocRhel810Kretprobe c room mid
  | midAllocRhel810553134Kretprobe c room mid =>
      cases mid with
      | none => exact (List.append_nil _).symm
      | some mid =>
          exact (congrArg (List.map Submission.event) (midAlloc_submissions ..)).trans
            (List.append_nil _).symm
  | midRelease c ring addr => exact smb_submissions_end m addr hroom

end Machine

section Selected
variable {env : Environment} {k : Client} {s : Selection}

/-- The operation that something that happens asks for. -/
def asked {l : Layout} (tracepoints : Bool) (o : Occurrence l) : Option (SmbOp × DiagContext) :=
  (o.phase tracepoints).map (Phase.op tracepoints (Request.key tracepoints) record)

end Selected

/-- Its client releases a request with the server. -/
def pairClient : Client where
  layout := ⟨24, 40, 16⟩
  releaseFunc := cstr "__release_mid"
  releaseArguments := .serverMid
  known := by decide

def negotiateRequest : Request := ⟨0x1000, 1, 2, 0, 3, by decide⟩
def readRequest : Request := ⟨0x2000, 1, 2, 8, 4, by decide⟩

/-- An allocation fails between two requests that overlap. -/
def overlapping : List (Occurrence pairClient.layout) :=
  let c (time : UInt64) : DiagContext := ⟨7, Buffer.zero 16, time⟩
  [.alloc (c 10) true (some ⟨negotiateRequest, fun _ => 0, fun _ => 3, rfl, rfl⟩),
    .alloc (c 15) true none,
    .alloc (c 20) true (some ⟨readRequest, fun _ => 8, fun _ => 4, rfl, rfl⟩),
    .release (c 2000) ⟨true, 0, 0⟩ 0 negotiateRequest, .release (c 3000) ⟨true, 0, 0⟩ 0 readRequest]

end MonitoringTools.SmbHooks
