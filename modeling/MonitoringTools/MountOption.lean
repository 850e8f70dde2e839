import Mathlib.Tactic.IntervalCases
import MonitoringTools.IoslowerProbes
import MonitoringTools.IosnoopFilter

/-!
# From a mount path to the events

The kernel keeps the number of a device in 32 bits, `stat` tells it in the number format of
the C library, the loaders take that apart with `major` and `minor`, and the programs compare
both halves with those of the device of an operation. All four formats agree. iosnoop lets
operations on unknown devices pass; ioslower does not.
-/
namespace MonitoringTools.MountOption
open BpfHelpers FilesystemProbes Runs

/-- `makedev` of the C library. -/
def makedev (major minor : UInt32) : UInt64 :=
  ((major &&& 0xfff).toUInt64 <<< 8) ||| ((major &&& 0xfffff000).toUInt64 <<< 32) |||
    (minor &&& 0xff).toUInt64 ||| ((minor &&& 0xffffff00).toUInt64 <<< 12)

/-- `major` of the C library. -/
def major (dev : UInt64) : UInt32 :=
  ((dev &&& 0xfff00) >>> 8).toUInt32 ||| ((dev &&& 0xfffff00000000000) >>> 32).toUInt32

/-- `minor` of the C library. -/
def minor (dev : UInt64) : UInt32 :=
  (dev &&& 0xff).toUInt32 ||| ((dev &&& 0xffffff00000) >>> 12).toUInt32

/-- What `stat` tells about a file on a device of the kernel. -/
def stDev (sDev : UInt32) : UInt64 := makedev (sDev >>> 20) (sDev &&& 0xfffff)

/-- The filter that `main` configures from what `stat` told. -/
def filterCfg (mountDevId : UInt64) : MountFilterCfg := ⟨1, major mountDevId, minor mountDevId⟩

theorem major_makedev (ma mi : UInt32) : major (makedev ma mi) = ma := by
  refine UInt32.toBitVec_inj.mp (BitVec.eq_of_getLsbD_eq fun i hi => ?_)
  simp only [major, makedev]
  interval_cases i <;> simp

theorem minor_makedev (ma mi : UInt32) : minor (makedev ma mi) = mi := by
  refine UInt32.toBitVec_inj.mp (BitVec.eq_of_getLsbD_eq fun i hi => ?_)
  simp only [minor, makedev]
  interval_cases i <;> simp

theorem filterCfg_stDev (sDev : UInt32) :
    filterCfg (stDev sDev) = ⟨1, sDev >>> 20, sDev &&& 0xfffff⟩ := by
  rw [filterCfg, stDev, major_makedev, minor_makedev]

theorem enabled_filterCfg (mountDevId : UInt64) : (filterCfg mountDevId).enabled ≠ 0 :=
  (by decide : (1 : UInt32) ≠ 0)

theorem filterCfg_fits (sDev : UInt32) :
    (filterCfg (stDev sDev)).devMajor < 4096 ∧ (filterCfg (stDev sDev)).devMinor < 1048576 := by
  have hlt := sDev.toNat_lt
  rw [filterCfg_stDev, UInt32.lt_iff_toNat_lt, UInt32.lt_iff_toNat_lt]
  constructor
  · have hshift : (sDev >>> 20).toNat = sDev.toNat / 2 ^ 20 := by
      simp [Nat.shiftRight_eq_div_pow]
    rw [hshift, show (4096 : UInt32).toNat = 4096 from rfl]
    omega
  · have hmask : (sDev &&& 0xfffff).toNat = sDev.toNat % 2 ^ 20 := by
      rw [UInt32.toNat_and, ← Nat.and_two_pow_sub_one_eq_mod]
      rfl
    rw [hmask, show (1048576 : UInt32).toNat = 1048576 from rfl]
    omega

/-- The filter is for the device of the mount and no other. -/
theorem isDevice_filterCfg (sDev dev : UInt32) :
    (filterCfg (stDev sDev)).isDevice dev = true ↔ dev = sDev := by
  have hiff := MountFilterCfg.isDevice_iff (filterCfg_fits sDev).1 (filterCfg_fits sDev).2
  have hself : (filterCfg (stDev sDev)).isDevice sDev = true := by
    rw [filterCfg_stDev, MountFilterCfg.isDevice, Bool.and_eq_true, beq_iff_eq, beq_iff_eq]
    exact ⟨rfl, rfl⟩
  rw [hiff, ← (hiff sDev).mp hself]

example : filterCfg (stDev 0x103fffff) = ⟨1, 259, 1048575⟩ := by decide +kernel

section Iosnoop
open IosnoopProbes IosnoopFilter

theorem passMountFilter_filterCfg (sDev dev : UInt32) :
    passMountFilter (filterCfg (stDev sDev)) dev = true ↔ dev = sDev ∨ dev = 0 := by
  rw [← isDevice_filterCfg sDev dev, passMountFilter, if_neg (enabled_filterCfg _)]
  split
  next hzero => simp [hzero]
  next hzero => simp [hzero]

end Iosnoop

section Ioslower
open IoslowerProbes

def reached (threshold : UInt64) (cfg : MountFilterCfg) (fs : List Firing) : Maps :=
  fs.foldl fire (Maps.fresh threshold cfg)

/-- Every event carries the record of an entry earlier in the run, closed by an exit of the
same thread, whose device is an allowed one. -/
def SlowEventsOnlyFor (allowed : UInt32 → Prop) (threshold : UInt64) (cfg : MountFilterCfg)
    (fs : List Firing) : Prop :=
  ∀ e ∈ (reached threshold cfg fs).events, ∃ before c call middle c' hook ret after st,
    fs = before ++ .enter c call :: middle ++ .leave c' hook ret :: after ∧
    c'.pidTgid = c.pidTgid ∧ entryStart (reached threshold cfg before) c call = some st ∧
    allowed st.dev ∧ e = eventOf c' st ((c'.ktime - st.ts) / 1000) (hook.reportedRet ret)

@[simp] theorem reached_cfg (threshold : UInt64) (cfg : MountFilterCfg) (fs : List Firing) :
    (reached threshold cfg fs).mountFilterCfg = cfg := by
  induction fs using List.reverseRecOn with
  | nil => rfl
  | append_singleton fs f ih =>
      rw [reached, List.foldl_concat]
      cases f with
      | enter c call => rwa [fire, enter_spec]
      | leave c hook ret => rwa [fire, leave_spec]

theorem opStart_provenance {threshold : UInt64} {cfg : MountFilterCfg} {fs : List Firing}
    {t : UInt64} {st : Start} (h : (reached threshold cfg fs).opStart.lookup t = some st) :
    ∃ before c call after, fs = before ++ .enter c call :: after ∧ t = c.pidTgid ∧
      storedStart (reached threshold cfg before) c call = some st := by
  obtain ⟨before, f, after, hfs, c, call, rfl, ht, hst⟩ := foldl_provenance (r := (t, st))
    (fun (m : Maps) (r : UInt64 × Start) => m.opStart.lookup r.1 = some r.2)
    (fun m f r => ∃ c call, f = .enter c call ∧ r.1 = c.pidTgid ∧ storedStart m c call = some r.2)
    (fun r => by simp [Maps.fresh]) (fun _ _ _ => opStart_born) h
  exact ⟨before, c, call, after, hfs, ht, hst⟩

theorem events_born {m : Maps} {f : Firing} {e : Event} (h : e ∈ (fire m f).events) :
    (∃ c hook ret st, f = .leave c hook ret ∧ m.opStart.lookup c.pidTgid = some st ∧
      e = eventOf c st ((c.ktime - st.ts) / 1000) (hook.reportedRet ret)) ∨ e ∈ m.events := by
  cases f with
  | enter c call => exact .inr (by simpa only [fire, enter_events] using h)
  | leave c hook ret =>
      simp only [fire, leave_spec, List.mem_append, exitEvents] at h
      rcases h with h | h
      · exact .inr h
      · cases hst : m.opStart.lookup c.pidTgid with
        | none => simp [hst] at h
        | some st =>
            refine .inl ⟨c, hook, ret, st, rfl, hst, ?_⟩
            simp only [hst] at h
            split at h
            · exact List.mem_singleton.mp h
            · exact absurd h List.not_mem_nil

theorem ioslower_events_passed (threshold : UInt64) (cfg : MountFilterCfg) (fs : List Firing) :
    SlowEventsOnlyFor (fun dev => passMountFilter cfg dev = true) threshold cfg fs := by
  intro e he
  obtain ⟨upto, f, after, rfl, c', hook, ret, st, rfl, hst, rfl⟩ := foldl_provenance
    (fun (m : Maps) e => e ∈ m.events)
    (fun m f e => ∃ c hook ret st, f = .leave c hook ret ∧ m.opStart.lookup c.pidTgid = some st ∧
      e = eventOf c st ((c.ktime - st.ts) / 1000) (hook.reportedRet ret))
    (fun e => by simp [Maps.fresh]) (fun _ _ _ => events_born) he
  obtain ⟨before, c, call, middle, rfl, hid, hstored⟩ := opStart_provenance hst
  obtain ⟨hentry, hpass⟩ := storedStart_some.mp hstored
  rw [reached_cfg] at hpass
  exact ⟨before, c, call, middle, c', hook, ret, after, st, by simp, hid, hentry, hpass, rfl⟩

theorem slow_passMountFilter_filterCfg (sDev dev : UInt32) :
    passMountFilter (filterCfg (stDev sDev)) dev = true ↔ dev = sDev := by
  rw [← isDevice_filterCfg sDev dev, passMountFilter, if_neg (enabled_filterCfg _)]

end Ioslower

/-- With a mount path, whatever the device of its file system, every event of iosnoop carries
the record of an entry that found that device or none, and every event of ioslower one of an
entry that found that device. -/
theorem events_of_mount (sDev : UInt32) (threshold : UInt64) (fs : List Firing) :
    IosnoopFilter.EventsOnlyFor (fun dev => dev = sDev ∨ dev = 0) (filterCfg (stDev sDev)) fs ∧
      SlowEventsOnlyFor (fun dev => dev = sDev) threshold (filterCfg (stDev sDev)) fs := by
  constructor
  · simpa only [passMountFilter_filterCfg] using
      IosnoopFilter.events_passed (filterCfg (stDev sDev)) fs
  · simpa only [slow_passMountFilter_filterCfg] using
      ioslower_events_passed threshold (filterCfg (stDev sDev)) fs

end MonitoringTools.MountOption
