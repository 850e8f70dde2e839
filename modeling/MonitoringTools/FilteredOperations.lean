import MonitoringTools.IosnoopFilter
import MonitoringTools.VmaTracking

/-!
# The operations behind the events of a filtered iosnoop

A call works on a file, a directory or a mapping, and that lives on a device whether or not
a probe finds it. What is mapped where is the business of the kernel: the two traced
functions change it, and so do programs that start, fork and end. An event is for the call
whose return emits it. A device that an entry cannot find, a mapping table that is out of
date and a record of an enclosing call each let out an event for another device.
-/
namespace MonitoringTools.FilteredOperations
open BpfHelpers FilesystemProbes IosnoopProbes IosnoopFilter Runs

/-- Where the file or directory of a call is. A munmap names neither. -/
def superBlock : Call → Option SuperBlock
  | .vfsOpen path _ | .vfsGetattr path _ _ | .vfsTruncate path _ =>
      (path.bind Path.dentry).bind Dentry.dSb
  | .vfsRead file _ _ | .vfsWrite file _ _ | .vfsReadv file _ _ | .vfsWritev file _ _
  | .vfsFchmod file _ | .vfsFallocate file _ _ | .iterateDir file | .vfsLockFile file _
  | .doMmap file _ _ => (file.bind File.fPathDentry).bind Dentry.dSb
  | .vfsCreate dir _ _ _ | .vfsMkdir dir _ _ | .vfsRmdir dir _ | .vfsSymlink dir _ _
  | .vfsUnlink dir _ | .vfsLink _ dir _ | .vfsRenameLegacy dir _ => dir.bind Inode.iSb
  | .vfsReadlink dentry _ => dentry.bind Dentry.dSb
  | .vfsRename rd => rd.bind fun rd =>
      match rd.newParent with
      | some newParent => newParent.bind Dentry.dSb
      | none => rd.newDir.bind Inode.iSb
  | .vmMunmap _ _ => none

/-- The device of the file that is mapped at a page of a process. -/
abbrev Mappings := UInt32 → ℕ → Option UInt32

def page (addr : UInt64) : ℕ := addr.toNat / 4096

def pageCount (start len : UInt64) : ℕ := (start.toNat + len.toNat + 4095) / 4096 - page start

/-- The device of the file at the start of a range, if no other one has a file in the range. -/
def Mappings.home (ms : Mappings) (pid : UInt32) (start len : UInt64) : Option UInt32 :=
  (ms pid (page start)).filter fun dev =>
    (List.range (pageCount start len)).all fun i => (ms pid (page start + i)).all (· == dev)

/-- All pages of a range get the same device, or none. -/
def Mappings.fill (ms : Mappings) (pid : UInt32) (start len : UInt64) (dev : Option UInt32) :
    Mappings := fun pid' p =>
  if pid' = pid ∧ page start ≤ p ∧ p < page start + pageCount start len then dev
  else ms pid' p

/-- Nothing is known about a process any more. -/
def Mappings.forget (ms : Mappings) (pid : UInt32) : Mappings := fun pid' p =>
  if pid' = pid then none else ms pid' p

structure Operation where
  call : Call
  home : Option UInt32

structure World where
  maps : Maps
  /-- The calls of a thread to a function that have not returned, latest first. -/
  calls : UInt64 × Hook → List Operation
  mappings : Mappings
  /-- The events, each with the call whose return emitted it. -/
  log : List (Option Operation × Event)

def World.start (cfg : MountFilterCfg) : World :=
  ⟨Maps.fresh cfg, fun _ => [], fun _ _ => none, []⟩

def World.home (w : World) (c : ProbeContext) : Call → Option UInt32
  | .vmMunmap start len => w.mappings.home c.pid start len
  | call => (superBlock call).map SuperBlock.sDev

/-- What is mapped after a return. A call from before the attach changes an unknown range. -/
def remap (ms : Mappings) (c : ProbeContext) (ret : UInt64) (op : Option Operation) :
    Hook → Mappings
  | .doMmap =>
      if 0 < asLong ret then
        match op.map Operation.call with
        | some (.doMmap file len prot) =>
            ms.fill c.pid ret len ((superBlock (.doMmap file len prot)).map SuperBlock.sDev)
        | _ => ms.forget c.pid
      else ms
  | .vmMunmap =>
      if ret = 0 then
        match op.map Operation.call with
        | some (.vmMunmap start len) => ms.fill c.pid start len none
        | _ => ms.forget c.pid
      else ms
  | _ => ms

/-- A probe fires, or the kernel maps and unmaps by other means. -/
inductive Move where
  | probe (f : Firing)
  | mappings (ms : Mappings)

/-- Every move is possible. A return is one of the latest call of its thread to the function,
unless that began before the attach. -/
def step (w : World) : Move → Option World
  | .probe (.enter c call) =>
      let key := (c.pidTgid, call.hook)
      some {w with
        maps := enter w.maps c call
        calls := Function.update w.calls key (⟨call, w.home c call⟩ :: w.calls key)}
  | .probe (.leave c hook ret) =>
      let key := (c.pidTgid, hook)
      let op := (w.calls key).head?
      let maps := leave w.maps c hook ret
      some {
        maps := maps
        calls := Function.update w.calls key (w.calls key).tail
        mappings := remap w.mappings c ret op hook
        log := w.log ++ (maps.events.drop w.maps.events.length).map (op, ·)}
  | .mappings ms => some {w with mappings := ms}

/-- Every event is for an operation on exactly this device. -/
def OnlyFor (dev : UInt32) (w : World) : Prop :=
  ∀ x ∈ w.log, x.1.bind Operation.home = some dev

instance (dev : UInt32) (w : World) : Decidable (OnlyFor dev w) :=
  inferInstanceAs (Decidable (∀ x ∈ w.log, _))

/-- A call has a known device when its file or directory has one. A munmap has one when the
mapping table has it, and that is right when it is the device of what is mapped there. -/
def FindsHome (w : World) (c : ProbeContext) : Call → Prop
  | .vmMunmap start len => ∃ dev ∈ w.maps.vmaDevMap.lookup (vmaKey c.pid start),
      dev ≠ 0 ∧ w.mappings.home c.pid start len = some dev
  | call => devFromSb (superBlock call) ≠ 0

/-- A call that leaves a record finds its home. One that leaves none has no record of an
enclosing call under its key, or is on the filtered device as well. -/
def Clear (w : World) : Move → Prop
  | .probe (.enter c call) =>
      if (storedCtx w.maps c call).isSome ∧ c.stateRoom then FindsHome w c call
      else w.maps.opState.lookup (opKey c.pidTgid (exitType call.hook)) = none ∨
        w.home c call = some w.maps.mountFilterCfg.device
  | _ => True

theorem entryCtx_dev {m : Maps} {c : ProbeContext} {call : Call} {op : OpCtx}
    (h : entryCtx m c call = some op) (hcall : ∀ start len, call ≠ .vmMunmap start len) :
    op.dev = devFromSb (superBlock call) := by
  cases call
  case vmMunmap start len => exact absurd rfl (hcall start len)
  case vfsRename rd =>
    cases rd with
    | none => cases h
    | some rd =>
        obtain ⟨newParent, newDir, newDentry⟩ := rd
        cases h
        cases newParent <;> rfl
  case vfsGetattr path _ _ | vfsTruncate path _ | doMmap path _ _ =>
    all_goals
      cases path with
      | none => cases h
      | some path =>
          cases h
          rfl
  all_goals
    cases h
    rfl

section
variable {w u : World} {c : ProbeContext} {call : Call} {op : OpCtx}

theorem map_sDev_eq {sb : Option SuperBlock} (hdev : op.dev = devFromSb sb)
    (h : devFromSb sb ≠ 0) : sb.map SuperBlock.sDev = some op.dev ∧ op.dev ≠ 0 := by
  rw [hdev]
  cases sb with
  | none => exact absurd rfl h
  | some sb => exact ⟨rfl, h⟩

/-- A record of a call that finds its home names it. -/
theorem home_eq (hentry : entryCtx w.maps c call = some op) (h : FindsHome w c call) :
    w.home c call = some op.dev ∧ op.dev ≠ 0 := by
  cases call
  case vmMunmap start len =>
    cases hentry
    obtain ⟨dev, hfound, hknown, hhome⟩ := h
    have hdev : (traceVmMunmapKp w.maps c start len).dev = dev := by
      rw [traceVmMunmapKp, Option.mem_def.mp hfound]
      rfl
    rw [hdev]
    exact ⟨hhome, hknown⟩
  all_goals exact map_sDev_eq (entryCtx_dev hentry fun _ _ heq => nomatch heq) h

structure Inv (cfg : MountFilterCfg) (w : World) : Prop where
  filter : w.maps.mountFilterCfg = cfg
  owned : ∀ t hook r, w.maps.opState.lookup (opKey t (exitType hook)) = some r →
    (w.calls (t, hook)).head?.bind Operation.home = some cfg.device
  onlyFor : OnlyFor cfg.device w
  ring : w.maps.events = w.log.map Prod.snd

theorem inv_start (cfg : MountFilterCfg) : Inv cfg (World.start cfg) where
  filter := rfl
  owned t hook r h := by
    rw [World.start, Maps.fresh, Finmap.lookup_empty] at h
    cases h
  onlyFor x hx := absurd hx List.not_mem_nil
  ring := rfl

theorem enter_lookup_of_ne {m : Maps} {k : OpKey} (h : k ≠ opKey c.pidTgid (exitType call.hook)) :
    (enter m c call).opState.lookup k = m.opState.lookup k := by
  rw [enter_spec]
  cases storedCtx m c call with
  | none => rfl
  | some op =>
      dsimp only [HashMap.update]
      split
      · rw [HashMap.lookup_insert_eq, if_neg h]
      · rfl

variable {cfg : MountFilterCfg}

theorem inv_enter (henabled : cfg.enabled ≠ 0) (hmajor : cfg.devMajor < 4096)
    (hminor : cfg.devMinor < 1048576) (h : Inv cfg w) (hclear : Clear w (.probe (.enter c call)))
    (hstep : step w (.probe (.enter c call)) = some u) : Inv cfg u := by
  cases hstep
  refine ⟨(enter_cfg ..).trans h.filter, fun t hook r hr => ?_, h.onlyFor,
    (enter_events ..).trans h.ring⟩
  dsimp only at hr ⊢
  by_cases hkey : t = c.pidTgid ∧ hook = call.hook
  · obtain ⟨rfl, rfl⟩ := hkey
    rw [Function.update_self, List.head?_cons, Option.bind_some]
    dsimp only [Clear] at hclear
    split at hclear
    next hrecords =>
        obtain ⟨op, hstored⟩ := Option.isSome_iff_exists.mp hrecords.1
        obtain ⟨hentry, hpass⟩ := storedCtx_some.mp hstored
        obtain ⟨hhome, hknown⟩ := home_eq hentry hclear
        rw [h.filter, passMountFilter_iff henabled hmajor hminor] at hpass
        exact hpass.resolve_right hknown ▸ hhome
    next hdrops =>
        have hkept : (enter w.maps c call).opState = w.maps.opState := by
          rw [enter_spec]
          cases hstored : storedCtx w.maps c call with
          | none => rfl
          | some op => exact if_neg fun hroom => hdrops ⟨by rw [hstored]; rfl, hroom⟩
        rcases hclear with hnone | hhome
        · rw [hkept, hnone] at hr
          cases hr
        · rwa [h.filter] at hhome
  · have hpair : (t, hook) ≠ (c.pidTgid, call.hook) := fun heq => hkey (Prod.ext_iff.mp heq)
    rw [enter_lookup_of_ne fun heq => hkey (opKey_exitType_inj.mp heq)] at hr
    rw [Function.update_of_ne hpair]
    exact h.owned t hook r hr

theorem inv_leave {hook : Hook} {ret : UInt64} (h : Inv cfg w)
    (hstep : step w (.probe (.leave c hook ret)) = some u) : Inv cfg u := by
  cases hstep
  have hevents : (leave w.maps c hook ret).events =
      w.maps.events ++ exitEvents w.maps c hook ret := by
    rw [leave_spec]
  refine ⟨(leave_cfg ..).trans h.filter, fun t hook' r hr => ?_, fun x hx => ?_, ?_⟩
  · dsimp only at hr ⊢
    rw [leave_spec] at hr
    dsimp only at hr
    rw [HashMap.lookup_erase_eq] at hr
    split at hr
    next => cases hr
    next hkey =>
        have hpair : (t, hook') ≠ (c.pidTgid, hook) := fun heq =>
          hkey (opKey_exitType_inj.mpr (Prod.ext_iff.mp heq))
        rw [Function.update_of_ne hpair]
        exact h.owned t hook' r hr
  · dsimp only at hx
    rw [hevents, List.drop_left, List.mem_append, List.mem_map] at hx
    rcases hx with hold | ⟨e, he, rfl⟩
    · exact h.onlyFor x hold
    · cases hop : w.maps.opState.lookup (opKey c.pidTgid (exitType hook)) with
      | none => simp [exitEvents, hop] at he
      | some r => exact h.owned c.pidTgid hook r hop
  · dsimp only
    rw [hevents, List.drop_left, List.map_append, List.map_map, h.ring]
    simp

theorem inv_step (henabled : cfg.enabled ≠ 0) (hmajor : cfg.devMajor < 4096)
    (hminor : cfg.devMinor < 1048576) {m : Move} (h : Inv cfg w) (hclear : Clear w m)
    (hstep : step w m = some u) : Inv cfg u := by
  cases m with
  | probe f =>
      cases f with
      | enter c call => exact inv_enter henabled hmajor hminor h hclear hstep
      | leave c hook ret => exact inv_leave h hstep
  | mappings ms =>
      cases hstep
      exact ⟨h.filter, h.owned, h.onlyFor, h.ring⟩

/-- Whatever fires and whatever the kernel maps: while every call that leaves a record finds
its home, and none that leaves no record is inside a recorded call of its function from another
device, the events are for operations on the filtered device alone. -/
theorem onlyFor_of_clear (henabled : cfg.enabled ≠ 0) (hmajor : cfg.devMajor < 4096)
    (hminor : cfg.devMinor < 1048576) {moves : List Move}
    (hrun : run step (World.start cfg) moves = some w)
    (hclear : Along step Clear (World.start cfg) moves) :
    OnlyFor cfg.device w ∧ w.maps.events = w.log.map Prod.snd := by
  have hinv := run_invariant_along (fun w m u h hc hs => inv_step henabled hmajor hminor h hc hs)
    hrun (inv_start cfg) hclear
  exact ⟨hinv.onlyFor, hinv.ring⟩

end

instance (w : World) (c : ProbeContext) (call : Call) : Decidable (FindsHome w c call) := by
  cases call
  case vmMunmap => exact inferInstanceAs (Decidable (∃ _ ∈ _, _))
  all_goals exact inferInstanceAs (Decidable (_ ≠ _))

instance (w : World) (m : Move) : Decidable (Clear w m) :=
  match m with
  | .probe (.enter ..) => inferInstanceAs (Decidable (ite _ _ _))
  | .probe (.leave ..) | .mappings _ => .isTrue trivial

/-- A file of 8:1 is mapped and unmapped while another thread opens one of 8:2. -/
def mappedOnDevice : List Move :=
  [.probe (.enter (.roomy 7 0) VmaTracking.mapCall),
    .probe (.leave (.roomy 7 1) .doMmap 0x7f0000000000),
    .probe (.openOn (.roomy 8 2) 0x800002 "other"),
    .probe (.enter (.roomy 7 3) (.vmMunmap 0x7f0000000000 4096)),
    .probe (.leave (.roomy 7 4) .vmMunmap 0), .probe (.leave (.roomy 8 5) .vfsOpen 3)]

theorem onlyFor_of_clear_mappedOnDevice :
    ∃ w, run step (World.start ⟨1, 8, 1⟩) mappedOnDevice = some w ∧ w.log.length = 2 ∧
      OnlyFor 0x800001 w :=
  ⟨_, rfl, by decide +kernel,
    (@onlyFor_of_clear _ ⟨1, 8, 1⟩ (by decide) (by decide) (by decide) mappedOnDevice rfl
      (by decide +kernel)).1⟩

/-- An anonymous mapping is made and taken away under a filter for 8:1. -/
def mappedAnonymously : List Move :=
  [.probe (.enter (.roomy 7 0) (.doMmap none 4096 3)),
    .probe (.leave (.roomy 7 1) .doMmap 0x7f0000000000),
    .probe (.enter (.roomy 7 2) (.vmMunmap 0x7f0000000000 4096)),
    .probe (.leave (.roomy 7 3) .vmMunmap 0)]

theorem onlyFor_fails_mappedAnonymously :
    ¬ ∀ (cfg : MountFilterCfg) (moves : List Move) (w : World), cfg.enabled ≠ 0 →
      cfg.devMajor < 4096 → cfg.devMinor < 1048576 →
      run step (World.start cfg) moves = some w → OnlyFor cfg.device w := by
  intro h
  have honly := h ⟨1, 8, 1⟩ mappedAnonymously _ (by decide) (by decide) (by decide) rfl
  exact absurd honly (by decide +kernel)

end MonitoringTools.FilteredOperations
