import MonitoringTools.DiagEvents

/-!
# The smbslower probes

In tracepoint mode a request is known by its tree, session and message ids; in
function-probe mode by the address of its `mid_q_entry`. Both modes drop a
request whose command is on the denylist at its start, and emit at its end
when it took long enough.
-/
namespace MonitoringTools.SmbslowerProbes
open BpfHelpers DiagEvents

structure Rodata where
  minLatNs : UInt64
  wakeupDataSize : Int32
  deriving DecidableEq, Repr

/-- The record of a started request; `startNs` is its metric field. -/
structure SmbPartialEvent where
  smbcommand : UInt16
  startNs : UInt64
  mid : UInt64
  deriving DecidableEq, Repr

structure SmbTraceKey where
  tid : UInt32
  sesid : UInt64
  mid : UInt64
  deriving DecidableEq, Repr

structure Smb3CmdArgs where
  tid : UInt32
  sesid : UInt64
  cmd : UInt16
  mid : UInt64
  deriving DecidableEq, Repr

def Smb3CmdArgs.key (args : Smb3CmdArgs) : SmbTraceKey := ⟨args.tid, args.sesid, args.mid⟩

structure Maps where
  denylist : HashMap UInt16 UInt8
  temp : HashMap UInt64 SmbPartialEvent
  traceTemp : HashMap SmbTraceKey SmbPartialEvent
  submissions : List Submission

def Maps.fresh (denylist : HashMap UInt16 UInt8) : Maps := ⟨denylist, ∅, ∅, []⟩

def Maps.denied (m : Maps) (command : UInt16) : Bool := (m.denylist.lookup command).isSome

def eventOf (c : DiagContext) (partialEvent : SmbPartialEvent) : Event where
  pid := c.pid
  command := partialEvent.smbcommand
  tool := smbslower
  cmdEndTimeNs := c.ktime
  rqstId := partialEvent.mid
  metric := .latencyNs (c.ktime - partialEvent.startNs)
  task := c.comm

/-- What a completion submits for the record it took. -/
def completion (ro : Rodata) (c : DiagContext) (ring : Fill) (partialEvent : SmbPartialEvent) :
    Option Submission :=
  if c.ktime - partialEvent.startNs < ro.minLatNs then none
  else submitEvent 0 ro.wakeupDataSize ring (eventOf c partialEvent)

def traceSmb3CmdEnter (m : Maps) (c : DiagContext) (room : Bool) (args : Smb3CmdArgs) : Maps :=
  if m.denied args.cmd then m
  else {m with traceTemp := m.traceTemp.update room args.key ⟨args.cmd, c.ktime, args.mid⟩}

def completeTraceEvent (ro : Rodata) (m : Maps) (c : DiagContext) (ring : Fill)
    (key : SmbTraceKey) : Maps :=
  match m.traceTemp.lookup key with
  | none => m
  | some completed =>
      {m with
        traceTemp := m.traceTemp.erase key
        submissions := m.submissions ++ (completion ro c ring completed).toList}

def traceSmb3CmdDone (ro : Rodata) (m : Maps) (c : DiagContext) (ring : Fill)
    (args : Smb3CmdArgs) : Maps :=
  completeTraceEvent ro m c ring args.key

def traceSmb3CmdErr (ro : Rodata) (m : Maps) (c : DiagContext) (ring : Fill)
    (args : Smb3CmdArgs) : Maps :=
  completeTraceEvent ro m c ring args.key

/-- A `mid_q_entry` in memory: its address, what reads at an offset return,
and where the kernel's type information places the two fields. -/
structure MidQEntry where
  addr : UInt64
  read16 : ℕ → UInt16
  read64 : ℕ → UInt64
  commandOffset : ℕ
  midOffset : ℕ

/-- The alloc programs read the command and the mid at some offset each. -/
def midAlloc (commandOffset midOffset : ℕ) (m : Maps) (c : DiagContext) (room : Bool)
    (mid : MidQEntry) : Maps :=
  let command := mid.read16 commandOffset
  if m.denied command then m
  else {m with temp :=
    m.temp.updateNoexist room mid.addr ⟨command, c.ktime, mid.read64 midOffset⟩}

def midAllocFexit (m : Maps) (c : DiagContext) (room : Bool) (mid : MidQEntry) : Maps :=
  midAlloc mid.commandOffset mid.midOffset m c room mid

/-- The return probes skip a failed allocation. -/
def midAllocKretprobe (m : Maps) (c : DiagContext) (room : Bool) : Option MidQEntry → Maps
  | none => m
  | some mid => midAlloc mid.commandOffset mid.midOffset m c room mid

def midAllocRhel810Kretprobe (m : Maps) (c : DiagContext) (room : Bool) : Option MidQEntry → Maps
  | none => m
  | some mid => midAlloc 124 32 m c room mid

def midAllocRhel810553134Kretprobe (m : Maps) (c : DiagContext) (room : Bool) :
    Option MidQEntry → Maps
  | none => m
  | some mid => midAlloc 40 24 m c room mid

/-- The release programs end the request of the entry they are handed. -/
def probeExit (ro : Rodata) (m : Maps) (c : DiagContext) (ring : Fill) (addr : UInt64) : Maps :=
  match m.temp.lookup addr with
  | none => m
  | some completed =>
      {m with
        temp := m.temp.erase addr
        submissions := m.submissions ++ (completion ro c ring completed).toList}

theorem completion_event {ro : Rodata} {c : DiagContext} {ring : Fill}
    {partialEvent : SmbPartialEvent} (hroom : ring.room = true) :
    (completion ro c ring partialEvent).map Submission.event =
      if ro.minLatNs ≤ c.ktime - partialEvent.startNs then some (eventOf c partialEvent)
      else none := by
  simp only [completion, submitEvent, reserve, hroom, ← UInt64.not_lt]
  by_cases h : c.ktime - partialEvent.startNs < ro.minLatNs <;> simp [h]

end MonitoringTools.SmbslowerProbes
