import MonitoringTools.DiagEvents
import MonitoringTools.LittleEndian

/-!
# The event record in memory

The compiler lays the record out in 48 bytes. A producer leaves byte 7 unwritten,
and the upper half of the metric when it writes a return value: there the record
holds what the ring held before.
-/
namespace MonitoringTools.EventLayout
open DiagEvents LittleEndian

/-- `sizeof(struct event)`. -/
def sizeofEvent : ℕ := 48

/-- The metric union over four bytes of old memory. -/
def metricBytes (upper : UInt32) : Metric → List UInt8
  | .latencyNs v => encode 8 v.toNat
  | .retval v => encode 4 v.toUInt32.toNat ++ encode 4 upper.toNat

/-- The record of an event, over old memory. -/
def eventBytes (e : Event) (pad : UInt8) (upper : UInt32) : List UInt8 :=
  encode 4 e.pid.toNat ++ encode 2 e.command.toNat ++ [e.tool] ++ [pad] ++
    encode 8 e.cmdEndTimeNs.toNat ++ encode 8 e.rqstId.toNat ++ metricBytes upper e.metric ++
      e.task.1

@[simp] theorem length_metricBytes (upper : UInt32) (m : Metric) :
    (metricBytes upper m).length = 8 := by
  cases m <;> simp [metricBytes]

@[simp] theorem length_eventBytes (e : Event) (pad : UInt8) (upper : UInt32) :
    (eventBytes e pad upper).length = sizeofEvent := by
  simp [eventBytes, e.task.2, sizeofEvent]

end MonitoringTools.EventLayout
