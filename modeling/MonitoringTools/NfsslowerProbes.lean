import MonitoringTools.DiagEvents

/-!
# The nfsslower probes

A request is known by the address of its RPC task. The setup probe fires again
each time a task asks for a slot; the first firing is the one that counts.
-/
namespace MonitoringTools.NfsslowerProbes
open BpfHelpers DiagEvents

structure Rodata where
  minLatNs : UInt64
  wakeupDataSize : Int32
  deriving DecidableEq, Repr

structure RpcTask where
  addr : UInt64
  pStatidx : UInt32
  rqXid : UInt32
  deriving DecidableEq, Repr

structure NfsPartialEvent where
  nfscommand : UInt16
  startNs : UInt64
  deriving DecidableEq, Repr

structure Maps where
  denylist : HashMap UInt16 UInt8
  temp : HashMap UInt64 NfsPartialEvent
  submissions : List Submission

def Maps.fresh (denylist : HashMap UInt16 UInt8) : Maps := ⟨denylist, ∅, []⟩

def Maps.denied (m : Maps) (command : UInt16) : Bool := (m.denylist.lookup command).isSome

def RpcTask.nfscommand (task : RpcTask) : UInt16 := task.pStatidx.toUInt16

def eventOf (c : DiagContext) (task : RpcTask) (partialEvent : NfsPartialEvent) : Event where
  pid := c.pid
  command := partialEvent.nfscommand
  tool := nfsslower
  cmdEndTimeNs := c.ktime
  rqstId := (ntohl task.rqXid).toUInt64
  metric := .latencyNs (c.ktime - partialEvent.startNs)
  task := c.comm

/-- What an exit submits for the record it took. -/
def completion (ro : Rodata) (c : DiagContext) (ring : Fill) (task : RpcTask)
    (partialEvent : NfsPartialEvent) : Option Submission :=
  if c.ktime - partialEvent.startNs < ro.minLatNs then none
  else submitEvent 0 ro.wakeupDataSize ring (eventOf c task partialEvent)

def probeEntry (m : Maps) (c : DiagContext) (room : Bool) (task : RpcTask) : Maps :=
  if m.denied task.nfscommand then m
  else {m with temp := m.temp.updateNoexist room task.addr ⟨task.nfscommand, c.ktime⟩}

def probeExit (ro : Rodata) (m : Maps) (c : DiagContext) (ring : Fill) (task : RpcTask) : Maps :=
  match m.temp.lookup task.addr with
  | none => m
  | some started =>
      {m with
        temp := m.temp.erase task.addr
        submissions := m.submissions ++ (completion ro c ring task started).toList}

inductive Firing where
  | nfs4SetupSequence (c : DiagContext) (room : Bool) (task : RpcTask)
  | rpcExitTask (c : DiagContext) (ring : Fill) (task : RpcTask)
  deriving DecidableEq, Repr

def fire (ro : Rodata) (m : Maps) : Firing → Maps
  | .nfs4SetupSequence c room task => probeEntry m c room task
  | .rpcExitTask c ring task => probeExit ro m c ring task

theorem completion_event {ro : Rodata} {c : DiagContext} {ring : Fill} {task : RpcTask}
    {partialEvent : NfsPartialEvent} (hroom : ring.room = true) :
    (completion ro c ring task partialEvent).map Submission.event =
      if ro.minLatNs ≤ c.ktime - partialEvent.startNs then some (eventOf c task partialEvent)
      else none := by
  simp only [completion, submitEvent, reserve, hroom, ← UInt64.not_lt]
  by_cases h : c.ktime - partialEvent.startNs < ro.minLatNs <;> simp [h]

end MonitoringTools.NfsslowerProbes
