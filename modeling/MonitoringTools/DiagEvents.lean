import MonitoringTools.BpfHelpers

/-!
# The event record of the diagnostic tracers

The four SMB and NFS tracers share one pinned ring and one record. Each
chooses the notification flag of a submission from the amount of unread data
and its own wakeup size; a wakeup size of zero leaves the choice to the
kernel.
-/
namespace MonitoringTools.DiagEvents
open BpfHelpers

def maxSmbCommands : ℕ := 20
def maxNfsCommands : ℕ := 70

/-- Values of the `tool` field. -/
def smbslower : UInt8 := 0
def smbiosnoop : UInt8 := 1
def nfsslower : UInt8 := 10
def nfsiosnoop : UInt8 := 11

/-- The union of a latency and a return value. -/
inductive Metric where
  | latencyNs (v : UInt64)
  | retval (v : Int32)
  deriving DecidableEq, Repr

structure Event where
  pid : UInt32
  command : UInt16
  tool : UInt8
  cmdEndTimeNs : UInt64
  rqstId : UInt64
  metric : Metric
  task : Buffer 16
  deriving DecidableEq, Repr

/-- `bpf_ntohl` on a little-endian machine. -/
def ntohl (x : UInt32) : UInt32 :=
  (x <<< 24) ||| ((x &&& (0xff00 : UInt32)) <<< 8) |||
    ((x >>> 8) &&& (0xff00 : UInt32)) ||| (x >>> 24)

structure DiagContext where
  pidTgid : UInt64
  comm : Buffer 16
  ktime : UInt64
  deriving DecidableEq, Repr

def DiagContext.pid (c : DiagContext) : UInt32 := (c.pidTgid >>> 32).toUInt32

/-- The ring during one firing: whether a reservation finds space, and the
unread data when the flags for reserve and for submit are computed. -/
structure Fill where
  room : Bool
  availAtReserve : Int64
  availAtSubmit : Int64
  deriving DecidableEq, Repr

def getFlags (wakeupDataSize : Int32) (avail : Int64) : ℕ :=
  if wakeupDataSize = 0 then 0
  else if wakeupDataSize.toInt64 ≤ avail then forceWakeup else noWakeup

structure Submission where
  event : Event
  flags : ℕ
  deriving DecidableEq, Repr

/-- Reserve, fill in and submit. -/
def submitEvent (reserveFlags : ℕ) (wakeupDataSize : Int32) (ring : Fill) (event : Event) :
    Option Submission :=
  if reserve reserveFlags ring.room then
    some ⟨event, getFlags wakeupDataSize ring.availAtSubmit⟩
  else none

theorem getFlags_eq_zero_iff {w : Int32} {avail : Int64} : getFlags w avail = 0 ↔ w = 0 := by
  unfold getFlags
  split_ifs with hw hfull
  · simp [hw]
  · simp [hw, forceWakeup]
  · simp [hw, noWakeup]

/-- A reservation under the notification flags needs a zero wakeup size. -/
theorem reserve_getFlags (w : Int32) (avail : Int64) (room : Bool) :
    reserve (getFlags w avail) room = (decide (w = 0) && room) := by
  rw [reserve, Bool.eq_iff_iff, Bool.and_eq_true, Bool.and_eq_true, beq_iff_eq,
    getFlags_eq_zero_iff, decide_eq_true_eq]

end MonitoringTools.DiagEvents
