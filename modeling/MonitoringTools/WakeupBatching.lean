import MonitoringTools.DiagEvents
import MonitoringTools.EventLayout
import MonitoringTools.WakeupThresholds

/-!
# Waking the consumer of the shared ring

The four diagnostic tools share one pinned ring. Each computes the notification flags of a
submission from the unread data and its own wakeup size; the error tracers compute the
flags of a reservation the same way, and the kernel refuses a reservation with flags. The
consumer that polls the ring is told of data only by a notification, or when it attaches.
-/
namespace MonitoringTools.WakeupBatching
open BpfHelpers DiagEvents EventLayout RecordRing Runs WakeupThresholds

inductive Tool where
  | smbslower
  | nfsslower
  | smbiosnoop
  | nfsiosnoop
  deriving DecidableEq, Repr

/-- The slow tracers reserve without flags. -/
def Tool.slow : Tool → Bool
  | smbslower | nfsslower => true
  | smbiosnoop | nfsiosnoop => false

structure Tools where
  attached : Tool → Bool
  wakeupDataSize : Tool → Int32

/-- The programs of a tool may run on every processor. -/
structure Program where
  tool : Tool
  cpu : ℕ
  deriving DecidableEq, Repr

def maxEntries : ℕ := 2048

/-- A record takes eight bytes more in the ring. -/
def recordSize : ℕ := sizeofEvent + 8

def Tools.flags (t : Tools) (tool : Tool) (unread : ℕ) : ℕ :=
  getFlags (t.wakeupDataSize tool) (Int64.ofNat unread)

def Tools.reserveFlags (t : Tools) (tool : Tool) (unread : ℕ) : ℕ :=
  if tool.slow then 0 else t.flags tool unread

/-- What flags mean to the kernel. -/
def notifyOf (flags : ℕ) : Notify :=
  if flags = forceWakeup then .force else if flags = noWakeup then .no else .adaptive

def Tools.ring (t : Tools) : Config Program where
  size := recordSize
  capacity := maxEntries * 4096 - 1
  admits p unread := t.attached p.tool && reserve (t.reserveFlags p.tool unread) true
  notify p unread := notifyOf (t.flags p.tool unread)

/-- A tool that records events at all: an error tracer does not if it has a wakeup size. -/
def Tools.Recording (t : Tools) (tool : Tool) : Prop :=
  t.attached tool = true ∧ (tool.slow = true ∨ t.wakeupDataSize tool = 0)

/-- The wakeup size as a number. -/
def Tools.size (t : Tools) (tool : Tool) : ℤ := (t.wakeupDataSize tool).toInt

theorem size_eq_zero_iff {t : Tools} {tool : Tool} :
    t.size tool = 0 ↔ t.wakeupDataSize tool = 0 :=
  ⟨fun h => Int32.toInt_inj.mp h, fun h => congrArg Int32.toInt h⟩

/-- Within the ring, the flags are those of a producer that waits for its wakeup size. -/
theorem notifyOf_flags (t : Tools) (p : Program) {a : ℕ} (ha : a ≤ t.ring.capacity) :
    notifyOf (t.flags p.tool a) = threshold (fun p => t.size p.tool) p a := by
  have hcapacity : maxEntries * 4096 - 1 < 2 ^ 63 := by decide
  have hfits : a < 2 ^ 63 := lt_of_le_of_lt ha hcapacity
  have hle : (t.wakeupDataSize p.tool).toInt64 ≤ Int64.ofNat a ↔ t.size p.tool ≤ a := by
    rw [Int64.le_iff_toInt_le, Int32.toInt_toInt64, Int64.toInt_ofNat_of_lt hfits, Tools.size]
  simp only [threshold, Tools.flags, getFlags, size_eq_zero_iff, hle]
  split_ifs <;> rfl

theorem admits_eq (t : Tools) (p : Program) (a : ℕ) :
    t.ring.admits p a = true ↔ t.Recording p.tool := by
  simp only [Tools.ring, Tools.Recording, Tools.reserveFlags, Tools.flags, reserve,
    Bool.and_eq_true, beq_iff_eq, and_true]
  cases p.tool.slow <;> simp [getFlags_eq_zero_iff]

theorem live_iff (t : Tools) (p : Program) : t.ring.Live p ↔ t.Recording p.tool :=
  ⟨fun ⟨a, ha⟩ => (admits_eq t p a).mp ha, fun h => ⟨0, (admits_eq t p 0).mpr h⟩⟩

instance : Nonempty Event := ⟨⟨0, 0, 0, 0, 0, .retval 0, Buffer.zero 16⟩⟩

theorem most_eq (t : Tools) : t.ring.most = 8388576 := by
  show (maxEntries * 4096 - 1) / recordSize * recordSize = 8388576
  decide

/-- The tools can put the ring into a state where no producer will ever record or notify
again and the consumer sleeps, exactly if one waits for more than the ring holds, or if one
waits for more than a record while another has no wakeup size. Only a consumer that
attaches anew ends it. -/
theorem exists_stuck_iff_sizes (t : Tools) :
    ((∃ (ms : List (Move Program Event)) (r : Records Program Event),
        run (step t.ring) Records.empty ms = some r ∧ r.Stuck t.ring) ↔
      (∃ tool, t.Recording tool ∧ 8388576 < t.size tool) ∨
        (∃ tool, t.Recording tool ∧ (recordSize : ℤ) < t.size tool) ∧
          ∃ tool, t.Recording tool ∧ t.size tool = 0) ∧
      ∀ (r r' : Records Program Event) (ms : List (Move Program Event)), r.Stuck t.ring →
        .attach ∉ ms → run (step t.ring) r ms = some r' → r' = r := by
  refine ⟨?_, fun r r' ms hstuck hms hrun => hstuck.run hms hrun⟩
  have hsize : 0 < recordSize := by decide
  have hfits : recordSize ≤ maxEntries * 4096 - 1 := by decide
  rw [exists_stuck_iff (c := t.ring) (w := fun p => t.size p.tool) hsize hfits
    (fun p hp a => (admits_eq t p a).mpr ((live_iff t p).mp hp))
    fun p _ a ha => notifyOf_flags t p ha]
  have hlive : ∀ P : Tool → Prop,
      (∃ p : Program, t.ring.Live p ∧ P p.tool) ↔ ∃ tool, t.Recording tool ∧ P tool := by
    intro P
    constructor
    · rintro ⟨p, hp, hP⟩
      exact ⟨p.tool, (live_iff t p).mp hp, hP⟩
    · rintro ⟨tool, htool, hP⟩
      exact ⟨⟨tool, 0⟩, (live_iff t ⟨tool, 0⟩).mpr htool, hP⟩
  constructor
  · intro hnot
    by_contra hnone
    obtain ⟨hmost, halike⟩ := not_or.mp hnone
    refine hnot ⟨fun p hp => ?_, fun hadaptive p hp => ?_⟩
    · by_contra hmore
      rw [most_eq] at hmore
      exact hmost ((hlive (8388576 < t.size ·)).mp ⟨p, hp, not_le.mp hmore⟩)
    · by_contra hmore
      exact halike ⟨(hlive ((recordSize : ℤ) < t.size ·)).mp ⟨p, hp, not_le.mp hmore⟩,
        (hlive (t.size · = 0)).mp hadaptive⟩
  · rintro hsome ⟨hmost, halike⟩
    rcases hsome with hmore | ⟨hmore, hadaptive⟩
    · obtain ⟨p, hp, hless⟩ := (hlive (8388576 < t.size ·)).mpr hmore
      have hle := hmost p hp
      rw [most_eq] at hle
      exact absurd hless (not_lt.mpr hle)
    · obtain ⟨p, hp, hless⟩ := (hlive ((recordSize : ℤ) < t.size ·)).mpr hmore
      exact absurd hless (not_lt.mpr (halike ((hlive (t.size · = 0)).mpr hadaptive) p hp))

end MonitoringTools.WakeupBatching
