import MonitoringTools.FilesystemProbes

/-!
# The ioslower probes

ioslower traces the same functions as iosnoop. Its entry handlers leave one
start record per thread; whichever exit comes next on that thread takes it.
An exit emits when the elapsed time reaches the threshold slot, which reads
zero until the loader writes it.
-/
namespace MonitoringTools.IoslowerProbes
open BpfHelpers FilesystemProbes

def scOpen : UInt8 := 1
def scRead : UInt8 := 3
def scWrite : UInt8 := 4
def scStat : UInt8 := 6
def scMkdir : UInt8 := 9
def scRmdir : UInt8 := 11
def scUnlink : UInt8 := 12
def scRename : UInt8 := 14
def scFchmod : UInt8 := 20
def scTruncate : UInt8 := 23
def scLink : UInt8 := 25
def scSymlink : UInt8 := 27
def scReadlink : UInt8 := 29
def scReadv : UInt8 := 33
def scWritev : UInt8 := 34
def scMmap : UInt8 := 45
def scMunmap : UInt8 := 47
def scCreate : UInt8 := 48
def scFallocate : UInt8 := 49
def scGetdents : UInt8 := 50
def scLockFcntl : UInt8 := 51

structure Event where
  ts : UInt64
  pid : UInt32
  uid : UInt32
  gid : UInt32
  deltaUs : UInt32
  type : UInt8
  ret : Int32
  comm : Buffer 16
  fname : Buffer 256
  deriving DecidableEq, Repr

structure Start where
  ts : UInt64
  type : UInt8
  dev : UInt32
  fname : Buffer 96
  deriving DecidableEq, Repr

structure Maps where
  thresholdConfig : UInt64
  mountFilterCfg : MountFilterCfg
  opStart : HashMap UInt64 Start
  vmaDevMap : HashMap UInt64 UInt32
  events : List Event

def Maps.fresh (threshold : UInt64) (cfg : MountFilterCfg) : Maps := ⟨threshold, cfg, ∅, ∅, []⟩

/-- Unlike iosnoop, an enabled filter drops an unknown device. -/
def passMountFilter (cfg : MountFilterCfg) (dev : UInt32) : Bool :=
  if cfg.enabled = 0 then true else cfg.isDevice dev

/-- Unlike iosnoop, the device of a file is its inode's. -/
def devFromFile (file : Option File) : UInt32 := devFromInode (file.bind File.fInode)

def eventOf (c : ProbeContext) (st : Start) (deltaUs : UInt64) (ret : Int32) : Event where
  ts := c.ktimeEmit
  pid := c.pid
  uid := (c.uidGid &&& 0xffffffff).toUInt32
  gid := (c.uidGid >>> 32).toUInt32
  deltaUs := deltaUs.toUInt32
  type := st.type
  ret := ret
  comm := c.comm
  fname := st.fname.widen 160

def emitEvent (m : Maps) (c : ProbeContext) (st : Start) (deltaNs : UInt64) (ret : Int32) : Maps :=
  let deltaUs := deltaNs / 1000
  if deltaUs < m.thresholdConfig then m
  else if reserve 0 c.ringRoom then {m with events := m.events ++ [eventOf c st deltaUs ret]}
  else m

def startOrDrop (m : Maps) (c : ProbeContext) (st : Start) : Maps :=
  if passMountFilter m.mountFilterCfg st.dev then
    {m with opStart := m.opStart.update c.stateRoom c.pidTgid st}
  else m

def finishEvent (m : Maps) (c : ProbeContext) (ret : Int32) : Maps :=
  match m.opStart.lookup c.pidTgid with
  | none => m
  | some st =>
      let m' := emitEvent m c st (c.ktime - st.ts) ret
      {m' with opStart := m'.opStart.erase c.pidTgid}

/-- A start record of a path, a file or a directory entry. -/
def startPath (c : ProbeContext) (type : UInt8) (path : Option Path) : Start :=
  ⟨c.ktime, type, devFromPath path, readPathName path 96⟩

def startFile (c : ProbeContext) (type : UInt8) (file : Option File) : Start :=
  ⟨c.ktime, type, devFromFile file, readFileName file 96⟩

def startInode (c : ProbeContext) (type : UInt8) (dir : Option Inode)
    (dentry : Option Dentry) : Start :=
  ⟨c.ktime, type, devFromInode dir, readDentryName dentry 96⟩

def traceVfsOpenEnter (c : ProbeContext) (path : Option Path) : Option Start :=
  some (startPath c scOpen path)

def traceVfsReadEnter (c : ProbeContext) (file : Option File) : Option Start :=
  some (startFile c scRead file)

def traceVfsWriteEnter (c : ProbeContext) (file : Option File) : Option Start :=
  some (startFile c scWrite file)

def traceVfsCreateEnter (c : ProbeContext) (dir : Option Inode) (dentry : Option Dentry) :
    Option Start :=
  some (startInode c scCreate dir dentry)

def traceVfsMkdirEnter (c : ProbeContext) (dir : Option Inode) (dentry : Option Dentry) :
    Option Start :=
  some (startInode c scMkdir dir dentry)

def traceVfsRmdirEnter (c : ProbeContext) (dir : Option Inode) (dentry : Option Dentry) :
    Option Start :=
  some (startInode c scRmdir dir dentry)

def traceVfsSymlinkEnter (c : ProbeContext) (dir : Option Inode) (dentry : Option Dentry) :
    Option Start :=
  some (startInode c scSymlink dir dentry)

def traceVfsRenameEnter (c : ProbeContext) (rd : Option RenameData) : Option Start :=
  match rd with
  | none => none
  | some rd => some ⟨c.ktime, scRename, devFromRename rd, readDentryName rd.newDentry 96⟩

def traceVfsRenameLegacyKprobeFallback (c : ProbeContext) (newDir : Option Inode)
    (newDentry : Option Dentry) : Option Start :=
  some (startInode c scRename newDir newDentry)

def traceVfsGetattrEnter (c : ProbeContext) (path : Option Path) : Option Start :=
  match path with
  | none => none
  | some path => some (startPath c scStat (some path))

def traceVfsTruncateEnter (c : ProbeContext) (path : Option Path) : Option Start :=
  match path with
  | none => none
  | some path => some (startPath c scTruncate (some path))

def traceVfsFchmodEnter (c : ProbeContext) (file : Option File) : Option Start :=
  some (startFile c scFchmod file)

def traceVfsReadlinkEnter (c : ProbeContext) (dentry : Option Dentry) : Option Start :=
  some ⟨c.ktime, scReadlink, devFromDentry dentry, readDentryName dentry 96⟩

def traceVfsReadvEnter (c : ProbeContext) (file : Option File) : Option Start :=
  some (startFile c scReadv file)

def traceVfsWritevEnter (c : ProbeContext) (file : Option File) : Option Start :=
  some (startFile c scWritev file)

def traceVfsUnlinkKp (c : ProbeContext) (dir : Option Inode) (dentry : Option Dentry) :
    Option Start :=
  some (startInode c scUnlink dir dentry)

def traceVfsLinkKp (c : ProbeContext) (dir : Option Inode) (newDentry : Option Dentry) :
    Option Start :=
  some (startInode c scLink dir newDentry)

def traceVfsFallocateKp (c : ProbeContext) (file : Option File) : Option Start :=
  some (startFile c scFallocate file)

def traceIterateDirEnter (c : ProbeContext) (file : Option File) : Option Start :=
  some (startFile c scGetdents file)

/-- An anonymous mapping has no file and records nothing. -/
def traceDoMmapKp (c : ProbeContext) (file : Option File) : Option Start :=
  match file with
  | none => none
  | some file => some (startFile c scMmap (some file))

def traceVmMunmapKp (m : Maps) (c : ProbeContext) (start : UInt64) : Start :=
  ⟨c.ktime, scMunmap, (m.vmaDevMap.lookup (vmaKey c.pid start)).getD 0, Buffer.zero 96⟩

def traceVfsLockFileEnter (c : ProbeContext) (filp : Option File) : Option Start :=
  some (startFile c scLockFcntl filp)

/-- The start record the entry handler of a call builds, if it gets that far. -/
def entryStart (m : Maps) (c : ProbeContext) : Call → Option Start
  | .vfsOpen path _ => traceVfsOpenEnter c path
  | .vfsRead file _ _ => traceVfsReadEnter c file
  | .vfsWrite file _ _ => traceVfsWriteEnter c file
  | .vfsCreate dir dentry _ _ => traceVfsCreateEnter c dir dentry
  | .vfsMkdir dir dentry _ => traceVfsMkdirEnter c dir dentry
  | .vfsRmdir dir dentry => traceVfsRmdirEnter c dir dentry
  | .vfsSymlink dir dentry _ => traceVfsSymlinkEnter c dir dentry
  | .vfsRename rd => traceVfsRenameEnter c rd
  | .vfsRenameLegacy newDir newDentry => traceVfsRenameLegacyKprobeFallback c newDir newDentry
  | .vfsGetattr path _ _ => traceVfsGetattrEnter c path
  | .vfsTruncate path _ => traceVfsTruncateEnter c path
  | .vfsFchmod file _ => traceVfsFchmodEnter c file
  | .vfsReadlink dentry _ => traceVfsReadlinkEnter c dentry
  | .vfsReadv file _ _ => traceVfsReadvEnter c file
  | .vfsWritev file _ _ => traceVfsWritevEnter c file
  | .vfsUnlink dir dentry => traceVfsUnlinkKp c dir dentry
  | .vfsLink _ dir newDentry => traceVfsLinkKp c dir newDentry
  | .vfsFallocate file _ _ => traceVfsFallocateKp c file
  | .iterateDir file => traceIterateDirEnter c file
  | .doMmap file _ _ => traceDoMmapKp c file
  | .vmMunmap start _ => some (traceVmMunmapKp m c start)
  | .vfsLockFile filp _ => traceVfsLockFileEnter c filp

/-- The munmap entry deletes its mapping whether or not it found one. -/
def takeMapping (m : Maps) (c : ProbeContext) : Call → Maps
  | .vmMunmap start _ => {m with vmaDevMap := m.vmaDevMap.erase (vmaKey c.pid start)}
  | _ => m

def enter (m : Maps) (c : ProbeContext) (call : Call) : Maps :=
  match entryStart m c call with
  | none => takeMapping m c call
  | some st => startOrDrop (takeMapping m c call) c st

/-- The device the mmap exit stores, when it stores one: the device of
whatever record the thread has, mmap or not. -/
def trackedDevice (m : Maps) (c : ProbeContext) (ret : UInt64) : Option UInt32 :=
  match m.opStart.lookup c.pidTgid with
  | some st => if 0 < asLong ret then some st.dev else none
  | none => none

def traceDoMmapKrp (m : Maps) (c : ProbeContext) (ret : UInt64) : Maps :=
  let m' := match trackedDevice m c ret with
    | some dev => {m with vmaDevMap := m.vmaDevMap.update c.vmaRoom (vmaKey c.pid ret) dev}
    | none => m
  finishEvent m' c (if 0 < asLong ret then 0 else asS32 ret)

def leave (m : Maps) (c : ProbeContext) (hook : Hook) (ret : UInt64) : Maps :=
  match hook with
  | .doMmap => traceDoMmapKrp m c ret
  | _ => finishEvent m c (asS32 ret)

def fire (m : Maps) : Firing → Maps
  | .enter c call => enter m c call
  | .leave c hook ret => leave m c hook ret

/-- What the entry of a call stores in the start table. -/
def storedStart (m : Maps) (c : ProbeContext) (call : Call) : Option Start :=
  (entryStart m c call).filter fun st => passMountFilter m.mountFilterCfg st.dev

theorem storedStart_some {m : Maps} {c : ProbeContext} {call : Call} {st : Start} :
    storedStart m c call = some st ↔
      entryStart m c call = some st ∧ passMountFilter m.mountFilterCfg st.dev = true := by
  simp [storedStart, Option.filter_eq_some_iff]

theorem entryStart_ts {m : Maps} {c : ProbeContext} {call : Call} {st : Start}
    (h : entryStart m c call = some st) : st.ts = c.ktime := by
  cases call
  case vfsRename rd | vfsGetattr path _ _ | vfsTruncate path _ | doMmap path _ _ =>
    all_goals first | cases rd | cases path
    all_goals simp only [entryStart, traceVfsRenameEnter, traceVfsGetattrEnter,
      traceVfsTruncateEnter, traceDoMmapKp, reduceCtorEq, Option.some.injEq] at h
    subst h
    rfl
  all_goals cases h; rfl

theorem trackedDevice_some {m : Maps} {c : ProbeContext} {ret : UInt64} {dev : UInt32} :
    trackedDevice m c ret = some dev ↔
      ∃ st, m.opStart.lookup c.pidTgid = some st ∧ 0 < asLong ret ∧ dev = st.dev := by
  unfold trackedDevice
  cases m.opStart.lookup c.pidTgid <;> simp [eq_comm]

@[simp] theorem takeMapping_thresholdConfig (m : Maps) (c : ProbeContext) (call : Call) :
    (takeMapping m c call).thresholdConfig = m.thresholdConfig := by cases call <;> rfl

@[simp] theorem takeMapping_cfg (m : Maps) (c : ProbeContext) (call : Call) :
    (takeMapping m c call).mountFilterCfg = m.mountFilterCfg := by cases call <;> rfl

@[simp] theorem takeMapping_opStart (m : Maps) (c : ProbeContext) (call : Call) :
    (takeMapping m c call).opStart = m.opStart := by cases call <;> rfl

@[simp] theorem takeMapping_events (m : Maps) (c : ProbeContext) (call : Call) :
    (takeMapping m c call).events = m.events := by cases call <;> rfl

/-- An entry changes the start table by its stored record alone, and the
mapping table by taking a mapping; it submits nothing. -/
theorem enter_spec (m : Maps) (c : ProbeContext) (call : Call) :
    enter m c call = {m with
      opStart := match storedStart m c call with
        | some st => m.opStart.update c.stateRoom c.pidTgid st
        | none => m.opStart
      vmaDevMap := (takeMapping m c call).vmaDevMap} := by
  have hsame : takeMapping m c call = {m with vmaDevMap := (takeMapping m c call).vmaDevMap} := by
    cases call <;> rfl
  cases h : entryStart m c call with
  | none =>
      have hs : storedStart m c call = none := by simp [storedStart, h]
      simp only [enter, h, hs]
      exact hsame
  | some st =>
      cases hp : passMountFilter m.mountFilterCfg st.dev with
      | true =>
          have hs : storedStart m c call = some st := storedStart_some.mpr ⟨h, hp⟩
          simp [enter, h, hs, startOrDrop, hp]
      | false =>
          have hs : storedStart m c call = none := by simp [storedStart, h, Option.filter, hp]
          simp only [enter, h, hs, startOrDrop, takeMapping_cfg, hp, Bool.false_eq_true, if_false]
          exact hsame

theorem enter_stores {m : Maps} {c : ProbeContext} {call : Call} {r : Start}
    (hroom : c.stateRoom = true) (h : storedStart m c call = some r) :
    (enter m c call).opStart.lookup c.pidTgid = some r := by
  rw [enter_spec]
  simp only [h, hroom, HashMap.update_true, Finmap.lookup_insert]

/-- The events one exit adds, by the record it finds. -/
def exitEvents (m : Maps) (c : ProbeContext) (hook : Hook) (ret : UInt64) : List Event :=
  match m.opStart.lookup c.pidTgid with
  | some st =>
      if m.thresholdConfig ≤ (c.ktime - st.ts) / 1000 ∧ c.ringRoom then
        [eventOf c st ((c.ktime - st.ts) / 1000) (hook.reportedRet ret)]
      else []
  | none => []

theorem finishEvent_spec (m : Maps) (c : ProbeContext) (ret : Int32) :
    finishEvent m c ret = {m with
      opStart := m.opStart.erase c.pidTgid
      events := m.events ++ match m.opStart.lookup c.pidTgid with
        | some st =>
            if m.thresholdConfig ≤ (c.ktime - st.ts) / 1000 ∧ c.ringRoom then
              [eventOf c st ((c.ktime - st.ts) / 1000) ret]
            else []
        | none => []} := by
  unfold finishEvent
  cases h : m.opStart.lookup c.pidTgid with
  | none => simp [HashMap.erase_eq_self h]
  | some st =>
      simp only [emitEvent, reserve, ← UInt64.not_le]
      by_cases hslow : m.thresholdConfig ≤ (c.ktime - st.ts) / 1000 <;>
        cases hr : c.ringRoom <;> simp [hslow]

/-- An exit deletes the thread's record and submits it when it is slow; the
mmap exit also stores the device it tracks. -/
theorem leave_spec (m : Maps) (c : ProbeContext) (hook : Hook) (ret : UInt64) :
    leave m c hook ret = {m with
      opStart := m.opStart.erase c.pidTgid
      events := m.events ++ exitEvents m c hook ret
      vmaDevMap := match hook, trackedDevice m c ret with
        | .doMmap, some dev => m.vmaDevMap.update c.vmaRoom (vmaKey c.pid ret) dev
        | _, _ => m.vmaDevMap} := by
  cases hook
  case doMmap =>
    simp only [leave, traceDoMmapKrp, finishEvent_spec, exitEvents, Hook.reportedRet, true_and]
    cases trackedDevice m c ret <;> rfl
  all_goals simp [leave, finishEvent_spec, exitEvents, Hook.reportedRet]

@[simp] theorem enter_thresholdConfig (m : Maps) (c : ProbeContext) (call : Call) :
    (enter m c call).thresholdConfig = m.thresholdConfig := by simp [enter_spec]

@[simp] theorem enter_events (m : Maps) (c : ProbeContext) (call : Call) :
    (enter m c call).events = m.events := by simp [enter_spec]

@[simp] theorem leave_thresholdConfig (m : Maps) (c : ProbeContext) (hook : Hook) (ret : UInt64) :
    (leave m c hook ret).thresholdConfig = m.thresholdConfig := by rw [leave_spec]

theorem opStart_born {m : Maps} {f : Firing} {t : UInt64} {st : Start}
    (h : (fire m f).opStart.lookup t = some st) :
    (∃ c call, f = .enter c call ∧ t = c.pidTgid ∧ storedStart m c call = some st) ∨
      m.opStart.lookup t = some st := by
  cases f with
  | enter c call =>
      simp only [fire, enter_spec] at h
      cases hs : storedStart m c call with
      | none => exact .inr (by simpa only [hs] using h)
      | some stored =>
          simp only [hs, HashMap.update] at h
          split at h
          · rw [HashMap.lookup_insert_eq] at h
            split at h
            next ht => exact .inl ⟨c, call, rfl, ht, by rw [hs, ← h]⟩
            next => exact .inr h
          · exact .inr h
  | leave c hook ret =>
      simp only [fire, leave_spec, HashMap.lookup_erase_eq] at h
      split at h
      · exact absurd h (by simp)
      · exact .inr h

end MonitoringTools.IoslowerProbes
