import Mathlib.Tactic.IntervalCases
import MonitoringTools.IoslowerCorrelation

/-!
# The rows ioslower prints

`finish_event` measures an operation in 64 bits and compares all of them with
the threshold; the event carries the low 32. The consumer splits what it finds
there into milliseconds and microseconds.
-/
namespace MonitoringTools.IoslowerOutput
open BpfHelpers FilesystemProbes IoslowerProbes IoslowerCorrelation

/-- The consumer's names of the `SC_*` codes. -/
def syscallName (type : ℕ) : String :=
  match type with
  | 1 => "open"
  | 2 => "openat"
  | 3 => "read"
  | 4 => "write"
  | 5 => "close"
  | 6 => "stat"
  | 7 => "lstat"
  | 8 => "fstat"
  | 9 => "mkdir"
  | 10 => "mkdirat"
  | 11 => "rmdir"
  | 12 => "unlink"
  | 13 => "unlinkat"
  | 14 => "rename"
  | 15 => "renameat"
  | 16 => "renameat2"
  | 17 => "mount"
  | 18 => "umount2"
  | 19 => "chmod"
  | 20 => "fchmod"
  | 21 => "chown"
  | 22 => "fchown"
  | 23 => "truncate"
  | 24 => "ftruncate"
  | 25 => "link"
  | 26 => "linkat"
  | 27 => "symlink"
  | 28 => "symlinkat"
  | 29 => "readlink"
  | 30 => "readlinkat"
  | 31 => "pread64"
  | 32 => "pwrite64"
  | 33 => "readv"
  | 34 => "writev"
  | 35 => "preadv"
  | 36 => "pwritev"
  | 37 => "uring_enter"
  | 38 => "uring_setup"
  | 39 => "uring_register"
  | 40 => "io_setup"
  | 41 => "io_submit"
  | 42 => "io_getevents"
  | 43 => "io_cancel"
  | 44 => "io_destroy"
  | 45 => "mmap"
  | 46 => "mmap2"
  | 47 => "munmap"
  | 48 => "create"
  | 49 => "fallocate"
  | 50 => "getdents"
  | 51 => "lock_fcntl"
  | 52 => "lock_flock"
  | _ => "UNKNOWN"

theorem syscallName_of_le {type : ℕ} (hlow : 1 ≤ type) (hhigh : type ≤ 52) :
    syscallName type ≠ "UNKNOWN" := by
  interval_cases type <;> decide

/-- The consumer names every operation that the probes record. -/
theorem syscallName_entryStart {m : Maps} {c : ProbeContext} {call : Call} {st : Start}
    (h : entryStart m c call = some st) : syscallName st.type.toNat ≠ "UNKNOWN" := by
  refine syscallName_of_le ?_ ?_
  all_goals
    cases call
    case vfsRename rd | vfsGetattr path _ _ | vfsTruncate path _ | doMmap path _ _ =>
      all_goals first | cases rd | cases path
      all_goals simp only [entryStart, traceVfsRenameEnter, traceVfsGetattrEnter,
        traceVfsTruncateEnter, traceDoMmapKp, reduceCtorEq, Option.some.injEq] at h
      subst h
      exact of_decide_eq_true rfl
    all_goals cases h; exact of_decide_eq_true rfl

/-- The arguments of one printed line. The time of day is that of `seconds`;
the two strings end at their terminators. -/
structure Row where
  seconds : UInt64
  pid : Int32
  comm : List UInt8
  syscall : String
  ms : UInt32
  us : UInt32
  status : String
  fname : List UInt8
  deriving DecidableEq, Repr

/-- `sizeof(struct ioslower_event)`. -/
def sizeofEvent : ℕ := 312

def rowOf (e : Event) : Row where
  seconds := e.ts / 1000000000
  pid := e.pid.toInt32
  comm := e.comm.1.takeWhile (· ≠ 0)
  syscall := syscallName e.type.toNat
  ms := e.deltaUs / 1000
  us := e.deltaUs % 1000
  status := if 0 ≤ e.ret then "OK" else "ERR"
  fname := e.fname.1.takeWhile (· ≠ 0)

/-- The callback's return value, and the line it prints. -/
def handleEvent (e : Event) (dataSz : ℕ) : ℕ × Option Row :=
  if dataSz < sizeofEvent then (1, none) else (0, some (rowOf e))

/-- The microseconds that the two latency columns denote. -/
def Row.micros (row : Row) : ℕ := row.ms.toNat * 1000 + row.us.toNat

theorem rowOf_micros (e : Event) : (rowOf e).micros = e.deltaUs.toNat := by
  simp only [Row.micros, rowOf, UInt32.toNat_div, UInt32.toNat_mod, UInt32.toNat_ofNat]
  exact Nat.div_add_mod' _ _

theorem rowOf_us_lt (e : Event) : (rowOf e).us.toNat < 1000 := by
  rw [rowOf, UInt32.toNat_mod]
  exact Nat.mod_lt _ (by decide)

theorem rowOf_eventOf {c : ProbeContext} {st : Start} (hclock : st.ts.toNat ≤ c.ktime.toNat)
    (ret : Int32) : (rowOf (eventOf c st ((c.ktime - st.ts) / 1000) ret)).micros =
      elapsed st c.ktime.toNat % 2 ^ 32 := by
  rw [rowOf_micros, eventOf, UInt64.toNat_toUInt32, elapsed_eq hclock]

/-- Whatever event the exit submits is printed with the microseconds since the
entry, rounded down, and they reach the threshold. -/
def ReportsLatency (m : Maps) (c : ProbeContext) (st : Start) (ret : Int32) : Prop :=
  ∀ e, (finishEvent m c ret).events = m.events ++ [e] →
    ∃ row, handleEvent e sizeofEvent = (0, some row) ∧ row.us.toNat < 1000 ∧
      row.micros = elapsed st c.ktime.toNat ∧ m.thresholdConfig.toNat ≤ row.micros

theorem finishEvent_submits {m : Maps} {c : ProbeContext} {st : Start}
    (hst : m.opStart.lookup c.pidTgid = some st) (hclock : st.ts.toNat ≤ c.ktime.toNat)
    (ret : Int32) (e : Event) : (finishEvent m c ret).events = m.events ++ [e] ↔
      (m.thresholdConfig.toNat ≤ elapsed st c.ktime.toNat ∧ c.ringRoom = true) ∧
        e = eventOf c st ((c.ktime - st.ts) / 1000) ret := by
  rw [finishEvent_spec]
  simp only [hst, UInt64.le_iff_toNat_le, elapsed_eq hclock, List.append_cancel_left_eq]
  split
  next hdue => simp [hdue, eq_comm]
  next hdue => simp [hdue]

/-- An exit reports the latency it measured unless it submits an operation of
2^32 microseconds or more. -/
theorem reportsLatency_iff_short {m : Maps} {c : ProbeContext} {st : Start}
    (hst : m.opStart.lookup c.pidTgid = some st) (hclock : st.ts.toNat ≤ c.ktime.toNat)
    (ret : Int32) : ReportsLatency m c st ret ↔
      (m.thresholdConfig.toNat ≤ elapsed st c.ktime.toNat → c.ringRoom = true →
        elapsed st c.ktime.toNat < 2 ^ 32) := by
  constructor
  · intro hreports hdue hroom
    obtain ⟨row, hrow, -, hmicros, -⟩ :=
      hreports _ ((finishEvent_submits hst hclock ret _).mpr ⟨⟨hdue, hroom⟩, rfl⟩)
    obtain rfl : rowOf _ = row := Option.some.inj (congrArg Prod.snd hrow)
    rw [← hmicros, rowOf_eventOf hclock]
    exact Nat.mod_lt _ (by decide)
  · intro hshort e he
    obtain ⟨⟨hdue, hroom⟩, rfl⟩ := (finishEvent_submits hst hclock ret e).mp he
    have hmicros := rowOf_eventOf hclock ret
    rw [Nat.mod_eq_of_lt (hshort hdue hroom)] at hmicros
    exact ⟨_, rfl, rowOf_us_lt _, hmicros, hmicros ▸ hdue⟩

/-- A read that blocked for two minutes, under the default threshold. -/
def blockedRead : Maps :=
  {Maps.fresh 10000 ⟨0, 0, 0⟩ with
    opStart := Finmap.insert 7 ⟨0, scRead, 0, Buffer.zero 96⟩ ∅}

theorem reportsLatency_iff_short_blockedRead :
    ReportsLatency blockedRead (.roomy 7 120000000000) ⟨0, scRead, 0, Buffer.zero 96⟩ 0 :=
  (reportsLatency_iff_short (Finmap.lookup_insert _) (by decide) 0).mpr
    fun _ _ => by decide

/-- A read of 2^32 microseconds, about 72 minutes, is printed as zero. -/
theorem reportsLatency_fails_blockedRead :
    ¬ ∀ (m : Maps) (c : ProbeContext) (st : Start) (ret : Int32),
      m.opStart.lookup c.pidTgid = some st → st.ts.toNat ≤ c.ktime.toNat →
      ReportsLatency m c st ret := by
  intro h
  have hst : blockedRead.opStart.lookup (7 : UInt64) =
      some ⟨0, scRead, 0, Buffer.zero 96⟩ := Finmap.lookup_insert _
  have hclock : (0 : UInt64).toNat ≤ (4294967296000 : UInt64).toNat := by decide
  obtain ⟨row, hrow, -, hmicros, -⟩ := h blockedRead (.roomy 7 4294967296000) _ 0 hst hclock _
    ((finishEvent_submits hst hclock 0 _).mpr ⟨⟨by decide, rfl⟩, rfl⟩)
  obtain rfl : rowOf _ = row := Option.some.inj (congrArg Prod.snd hrow)
  rw [rowOf_eventOf hclock] at hmicros
  exact absurd hmicros (by decide)

end MonitoringTools.IoslowerOutput
