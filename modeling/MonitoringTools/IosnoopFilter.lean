import MonitoringTools.IosnoopProbes
import MonitoringTools.Runs

/-!
# What an enabled mount filter lets iosnoop emit

Probes fire here in any order at all, nested or not, and any insertion or
reservation may fail. Every event is traced back to the entry whose record it
carries, and the filter's decision at that entry bounds the device of the record.
A device number of zero stands for an operation whose device the entry probe could
not find, among them every munmap the mapping table does not know.
-/
namespace MonitoringTools.IosnoopFilter
open BpfHelpers FilesystemProbes IosnoopProbes Runs

def reached (cfg : MountFilterCfg) (fs : List Firing) : Maps := fs.foldl fire (Maps.fresh cfg)

/-- Every event carries the record of an entry earlier in the run, closed by
an exit of the same thread and function, whose device is an allowed one. -/
def EventsOnlyFor (allowed : UInt32 → Prop) (cfg : MountFilterCfg) (fs : List Firing) : Prop :=
  ∀ e ∈ (reached cfg fs).events, ∃ before c call middle c' ret after op,
    fs = before ++ .enter c call :: middle ++ .leave c' call.hook ret :: after ∧
    c'.pidTgid = c.pidTgid ∧ entryCtx (reached cfg before) c call = some op ∧
    allowed op.dev ∧ e = eventOf c' op (call.hook.reportedRet ret)

@[simp] theorem reached_cfg (cfg : MountFilterCfg) (fs : List Firing) :
    (reached cfg fs).mountFilterCfg = cfg := by
  induction fs using List.reverseRecOn with
  | nil => rfl
  | append_singleton fs f ih => rwa [reached, List.foldl_concat, fire_cfg]

theorem passMountFilter_iff {cfg : MountFilterCfg} (henabled : cfg.enabled ≠ 0)
    (hmajor : cfg.devMajor < 4096) (hminor : cfg.devMinor < 1048576) (dev : UInt32) :
    passMountFilter cfg dev = true ↔ dev = cfg.device ∨ dev = 0 := by
  rw [← cfg.isDevice_iff hmajor hminor, passMountFilter, if_neg henabled]
  split
  next h => simp [h]
  next h => simp [h]

theorem opState_born {m : Maps} {f : Firing} {k : OpKey} {op : OpCtx}
    (h : (fire m f).opState.lookup k = some op) :
    (∃ c call, f = .enter c call ∧ k = opKey c.pidTgid (exitType call.hook) ∧
      storedCtx m c call = some op) ∨ m.opState.lookup k = some op := by
  cases f with
  | enter c call =>
      simp only [fire, enter_spec] at h
      cases hs : storedCtx m c call with
      | none => exact .inr (by simpa only [hs] using h)
      | some stored =>
          simp only [hs, HashMap.update] at h
          split at h
          · rw [HashMap.lookup_insert_eq] at h
            split at h
            next hk => exact .inl ⟨c, call, rfl, hk, by rw [hs, ← h]⟩
            next => exact .inr h
          · exact .inr h
  | leave c hook ret =>
      simp only [fire, leave_spec, HashMap.lookup_erase_eq] at h
      split at h
      · exact absurd h (by simp)
      · exact .inr h

theorem events_born {m : Maps} {f : Firing} {e : Event} (h : e ∈ (fire m f).events) :
    (∃ c hook ret op, f = .leave c hook ret ∧
      m.opState.lookup (opKey c.pidTgid (exitType hook)) = some op ∧
      e = eventOf c op (hook.reportedRet ret)) ∨ e ∈ m.events := by
  cases f with
  | enter c call => exact .inr (by simpa only [fire, enter_events] using h)
  | leave c hook ret =>
      simp only [fire, leave_spec, List.mem_append, exitEvents] at h
      rcases h with h | h
      · exact .inr h
      · cases hop : m.opState.lookup (opKey c.pidTgid (exitType hook)) with
        | none => simp [hop] at h
        | some op =>
            refine .inl ⟨c, hook, ret, op, rfl, hop, ?_⟩
            simp only [hop] at h
            split at h
            · exact List.mem_singleton.mp h
            · exact absurd h (by simp)

theorem vmaDevMap_born {m : Maps} {f : Firing} {k : UInt64} {dev : UInt32}
    (h : (fire m f).vmaDevMap.lookup k = some dev) :
    (∃ j op, m.opState.lookup j = some op ∧ dev = op.dev) ∨
      m.vmaDevMap.lookup k = some dev := by
  cases f with
  | enter c call =>
      refine .inr ?_
      simp only [fire, enter_vmaDevMap] at h
      cases call
      case vmMunmap start len =>
        simp only [takeMapping, HashMap.lookup_erase_eq] at h
        split at h
        · cases h
        · exact h
      all_goals exact h
  | leave c hook ret =>
      simp only [fire, leave_spec] at h
      split at h
      next dev' hdev =>
        simp only [HashMap.update] at h
        split at h
        · rw [HashMap.lookup_insert_eq] at h
          split at h
          · cases h
            obtain ⟨op, hop, -, hd⟩ := trackedDevice_some.mp hdev
            exact .inl ⟨_, op, hop, hd⟩
          · exact .inr h
        · exact .inr h
      · exact .inr h

theorem opState_provenance {cfg : MountFilterCfg} {fs : List Firing} {k : OpKey} {op : OpCtx}
    (h : (reached cfg fs).opState.lookup k = some op) :
    ∃ before c call after, fs = before ++ .enter c call :: after ∧
      k = opKey c.pidTgid (exitType call.hook) ∧ storedCtx (reached cfg before) c call = some op := by
  obtain ⟨before, f, after, hfs, c, call, rfl, hk, hop⟩ := foldl_provenance (r := (k, op))
    (fun (m : Maps) (r : OpKey × OpCtx) => m.opState.lookup r.1 = some r.2)
    (fun m f r => ∃ c call, f = .enter c call ∧ r.1 = opKey c.pidTgid (exitType call.hook) ∧
      storedCtx m c call = some r.2)
    (fun r => by simp [Maps.fresh]) (fun _ _ _ => opState_born) h
  exact ⟨before, c, call, after, hfs, hk, hop⟩

theorem events_provenance {cfg : MountFilterCfg} {fs : List Firing} {e : Event}
    (h : e ∈ (reached cfg fs).events) :
    ∃ before c hook ret after op, fs = before ++ .leave c hook ret :: after ∧
      (reached cfg before).opState.lookup (opKey c.pidTgid (exitType hook)) = some op ∧
      e = eventOf c op (hook.reportedRet ret) := by
  obtain ⟨before, f, after, hfs, c, hook, ret, op, rfl, hop, he⟩ := foldl_provenance
    (fun (m : Maps) e => e ∈ m.events)
    (fun m f e => ∃ c hook ret op, f = .leave c hook ret ∧
      m.opState.lookup (opKey c.pidTgid (exitType hook)) = some op ∧
      e = eventOf c op (hook.reportedRet ret))
    (fun e => by simp [Maps.fresh]) (fun _ _ _ => events_born) h
  exact ⟨before, c, hook, ret, after, op, hfs, hop, he⟩

theorem vmaDevMap_passed {cfg : MountFilterCfg} {fs : List Firing} {k : UInt64} {dev : UInt32}
    (h : (reached cfg fs).vmaDevMap.lookup k = some dev) : passMountFilter cfg dev = true := by
  obtain ⟨before, f, after, -, j, op, hop, hdev⟩ := foldl_provenance (r := (k, dev))
    (fun (m : Maps) (r : UInt64 × UInt32) => m.vmaDevMap.lookup r.1 = some r.2)
    (fun m _ r => ∃ j op, m.opState.lookup j = some op ∧ r.2 = op.dev)
    (fun r => by simp [Maps.fresh]) (fun _ _ _ => vmaDevMap_born) h
  obtain ⟨earlier, c, call, later, -, -, hstored⟩ := opState_provenance hop
  rw [show dev = op.dev from hdev]
  simpa using (storedCtx_some.mp hstored).2

/-- Every event is of an operation that passed the filter at its entry. -/
theorem events_passed (cfg : MountFilterCfg) (fs : List Firing) :
    EventsOnlyFor (fun dev => passMountFilter cfg dev = true) cfg fs := by
  intro e he
  obtain ⟨upto, c', hook, ret, after, op, rfl, hop, rfl⟩ := events_provenance he
  obtain ⟨before, c, call, middle, rfl, hkey, hstored⟩ := opState_provenance hop
  obtain ⟨hid, htype⟩ := opKey_inj.mp hkey
  obtain rfl := exitType_injective htype
  obtain ⟨hentry, hpass⟩ := storedCtx_some.mp hstored
  rw [reached_cfg] at hpass
  exact ⟨before, c, call, middle, c', ret, after, op, by simp, hid, hentry, hpass, rfl⟩

/-- A device that an enabled filter lets pass is the configured one or unknown, in the
events and in the mapping table. -/
theorem events_only_for_device_or_unknown {cfg : MountFilterCfg} (henabled : cfg.enabled ≠ 0)
    (hmajor : cfg.devMajor < 4096) (hminor : cfg.devMinor < 1048576) (fs : List Firing) :
    EventsOnlyFor (fun dev => dev = cfg.device ∨ dev = 0) cfg fs ∧
    ∀ k dev, (reached cfg fs).vmaDevMap.lookup k = some dev → dev = cfg.device ∨ dev = 0 := by
  refine ⟨?_, fun k dev h =>
    (passMountFilter_iff henabled hmajor hminor dev).mp (vmaDevMap_passed h)⟩
  simpa only [passMountFilter_iff henabled hmajor hminor] using events_passed cfg fs

end MonitoringTools.IosnoopFilter
