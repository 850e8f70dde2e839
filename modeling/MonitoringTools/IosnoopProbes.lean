import MonitoringTools.ArgumentText
import MonitoringTools.FilesystemProbes

/-!
# The iosnoop probes

Each entry handler is written as the context it hands to `submit_or_drop`; a
handler that returns early has none. The munmap entry also takes its device
out of the mapping table. Every exit handler reads and deletes the record its
thread and type select; the mmap exit first feeds the mapping table.

The syscall probes are never loaded (see the hook selection) and are left out.
The fallback entry programs call the handlers below; the legacy create one
passes a false `want_excl`, the legacy rename one has its own handler.
-/
namespace MonitoringTools.IosnoopProbes
open BpfHelpers ArgumentText FilesystemProbes

def ioOpen : UInt8 := 1
def ioRead : UInt8 := 3
def ioWrite : UInt8 := 4
def ioStat : UInt8 := 6
def ioMkdir : UInt8 := 9
def ioRmdir : UInt8 := 11
def ioUnlink : UInt8 := 12
def ioRename : UInt8 := 14
def ioFchmod : UInt8 := 20
def ioTruncate : UInt8 := 23
def ioLink : UInt8 := 25
def ioSymlink : UInt8 := 27
def ioReadlink : UInt8 := 29
def ioReadv : UInt8 := 33
def ioWritev : UInt8 := 34
def ioMmap : UInt8 := 45
def ioMunmap : UInt8 := 47
def ioCreate : UInt8 := 48
def ioFallocate : UInt8 := 49
def ioGetdents : UInt8 := 50
def ioLockFcntl : UInt8 := 51

structure Event where
  ts : UInt64
  pid : UInt32
  uid : UInt32
  gid : UInt32
  type : UInt8
  ret : Int32
  comm : Buffer 16
  fname : Buffer 256
  args : Buffer 256
  deriving DecidableEq, Repr

structure OpCtx where
  type : UInt8
  dev : UInt32
  fname : Buffer 96
  args : Buffer 128
  deriving DecidableEq, Repr

structure OpKey where
  id : UInt64
  type : UInt32
  deriving DecidableEq, Repr

/-- The program's maps. `events` holds every submitted event, oldest first. -/
structure Maps where
  mountFilterCfg : MountFilterCfg
  opState : HashMap OpKey OpCtx
  vmaDevMap : HashMap UInt64 UInt32
  events : List Event

/-- The maps as the loader attaches them: a filter, and nothing recorded. -/
def Maps.fresh (cfg : MountFilterCfg) : Maps := ⟨cfg, ∅, ∅, []⟩

/-- An unknown device passes even an enabled filter. -/
def passMountFilter (cfg : MountFilterCfg) (dev : UInt32) : Bool :=
  if cfg.enabled = 0 then true
  else if dev = 0 then true
  else cfg.isDevice dev

def devFromFile (file : Option File) : UInt32 := devFromDentry (file.bind File.fPathDentry)

def eventOf (c : ProbeContext) (op : OpCtx) (ret : Int32) : Event where
  ts := c.ktimeEmit
  pid := c.pid
  uid := (c.uidGid &&& 0xffffffff).toUInt32
  gid := (c.uidGid >>> 32).toUInt32
  type := op.type
  ret := ret
  comm := c.comm
  fname := op.fname.widen 160
  args := op.args.widen 128

def emitEvent (m : Maps) (c : ProbeContext) (op : OpCtx) (ret : Int32) : Maps :=
  if reserve 0 c.ringRoom then {m with events := m.events ++ [eventOf c op ret]} else m

def opKey (id : UInt64) (type : UInt8) : OpKey := ⟨id, type.toUInt32⟩

def submitOrDrop (m : Maps) (c : ProbeContext) (op : OpCtx) : Maps :=
  if passMountFilter m.mountFilterCfg op.dev then
    {m with opState := m.opState.update c.stateRoom (opKey c.pidTgid op.type) op}
  else m

def finishEvent (m : Maps) (c : ProbeContext) (type : UInt8) (ret : Int32) : Maps :=
  match m.opState.lookup (opKey c.pidTgid type) with
  | none => m
  | some op =>
      let m' := emitEvent m c op ret
      {m' with opState := m'.opState.erase (opKey c.pidTgid type)}

def traceVfsOpenEnter (path : Option Path) (file : Option File) : Option OpCtx :=
  let flags : UInt32 := match file with | some f => f.fFlags | none => 0
  some ⟨ioOpen, devFromPath path, readPathName path 96,
    format 128 [.lit (bytes "flags="), .u64 flags.toUInt64]⟩

/-- Reads and writes format the count and the file position, -1 when null. -/
def transferCtx (type : UInt8) (file : Option File) (count : UInt64)
    (pos : Option Int64) : Option OpCtx :=
  some ⟨type, devFromFile file, readFileName file 96,
    format 128 [.lit (bytes "count="), .u64 count, .lit (bytes " pos="), .s64 (pos.getD (-1))]⟩

def traceVfsReadEnter (file : Option File) (count : UInt64) (pos : Option Int64) : Option OpCtx :=
  transferCtx ioRead file count pos

def traceVfsWriteEnter (file : Option File) (count : UInt64) (pos : Option Int64) : Option OpCtx :=
  transferCtx ioWrite file count pos

def traceVfsCreateEnter (dir : Option Inode) (dentry : Option Dentry) (mode : UInt16)
    (wantExcl : Bool) : Option OpCtx :=
  some ⟨ioCreate, devFromInode dir, readDentryName dentry 96,
    format 128 [.lit (bytes "mode="), .u64 mode.toUInt64,
      .lit (bytes " excl="), .u64 (if wantExcl then 1 else 0)]⟩

def traceVfsMkdirEnter (dir : Option Inode) (dentry : Option Dentry) (mode : UInt16) :
    Option OpCtx :=
  some ⟨ioMkdir, devFromInode dir, readDentryName dentry 96,
    format 128 [.lit (bytes "mode="), .u64 mode.toUInt64]⟩

def traceVfsRmdirEnter (dir : Option Inode) (dentry : Option Dentry) : Option OpCtx :=
  some ⟨ioRmdir, devFromInode dir, readDentryName dentry 96, format 128 []⟩

/-- The target is first copied into a 64-byte array of its own. -/
def traceVfsSymlinkEnter (dir : Option Inode) (dentry : Option Dentry)
    (oldname : Option (List UInt8)) : Option OpCtx :=
  let target := Buffer.ofString 64 (oldname.getD [])
  some ⟨ioSymlink, devFromInode dir, readDentryName dentry 96,
    format 128 [.lit (bytes "target="), .lit (target.1.takeWhile (· ≠ 0))]⟩

def traceVfsRenameEnter (rd : Option RenameData) : Option OpCtx :=
  match rd with
  | none => none
  | some rd =>
      some ⟨ioRename, devFromRename rd, readDentryName rd.newDentry 96, format 128 []⟩

def traceVfsRenameLegacyKprobeFallback (newDir : Option Inode) (newDentry : Option Dentry) :
    Option OpCtx :=
  some ⟨ioRename, devFromInode newDir, readDentryName newDentry 96, format 128 []⟩

def traceVfsGetattrEnter (path : Option Path) (requestMask queryFlags : UInt32) : Option OpCtx :=
  match path with
  | none => none
  | some path =>
      some ⟨ioStat, devFromPath (some path), readPathName (some path) 96,
        format 128 [.lit (bytes "mask="), .u64 requestMask.toUInt64,
          .lit (bytes " qflags="), .u64 queryFlags.toUInt64]⟩

def traceVfsTruncateEnter (path : Option Path) (length : Int64) : Option OpCtx :=
  match path with
  | none => none
  | some path =>
      some ⟨ioTruncate, devFromPath (some path), readPathName (some path) 96,
        format 128 [.lit (bytes "length="), .s64 length]⟩

def traceVfsFchmodEnter (file : Option File) (mode : UInt16) : Option OpCtx :=
  some ⟨ioFchmod, devFromFile file, readFileName file 96,
    format 128 [.lit (bytes "mode="), .u64 mode.toUInt64]⟩

def traceVfsReadlinkEnter (dentry : Option Dentry) (buflen : Int32) : Option OpCtx :=
  some ⟨ioReadlink, devFromDentry dentry, readDentryName dentry 96,
    format 128 [.lit (bytes "buflen="), .u64 buflen.toInt64.toUInt64]⟩

def vectorCtx (type : UInt8) (file : Option File) (vlen : UInt64) (flags : UInt32) :
    Option OpCtx :=
  some ⟨type, devFromFile file, readFileName file 96,
    format 128 [.lit (bytes "vlen="), .u64 vlen, .lit (bytes " flags="), .u64 flags.toUInt64]⟩

def traceVfsReadvEnter (file : Option File) (vlen : UInt64) (flags : UInt32) : Option OpCtx :=
  vectorCtx ioReadv file vlen flags

def traceVfsWritevEnter (file : Option File) (vlen : UInt64) (flags : UInt32) : Option OpCtx :=
  vectorCtx ioWritev file vlen flags

def traceVfsUnlinkKp (dir : Option Inode) (dentry : Option Dentry) : Option OpCtx :=
  some ⟨ioUnlink, devFromInode dir, readDentryName dentry 96, format 128 []⟩

def traceVfsLinkKp (oldDentry : Option Dentry) (dir : Option Inode) (newDentry : Option Dentry) :
    Option OpCtx :=
  let oldName := readDentryName oldDentry 64
  some ⟨ioLink, devFromInode dir, readDentryName newDentry 96,
    format 128 [.lit (bytes "old="), .lit (oldName.1.takeWhile (· ≠ 0))]⟩

def traceVfsFallocateKp (file : Option File) (offset len : Int64) : Option OpCtx :=
  some ⟨ioFallocate, devFromFile file, readFileName file 96,
    format 128 [.lit (bytes "offset="), .s64 offset, .lit (bytes " len="), .s64 len]⟩

def traceIterateDirEnter (file : Option File) : Option OpCtx :=
  some ⟨ioGetdents, devFromFile file, readFileName file 96, format 128 []⟩

/-- An anonymous mapping has no file and records nothing. -/
def traceDoMmapKp (file : Option File) (len prot : UInt64) : Option OpCtx :=
  match file with
  | none => none
  | some file =>
      some ⟨ioMmap, devFromFile (some file), readFileName (some file) 96,
        format 128 [.lit (bytes "len="), .u64 len, .lit (bytes " prot="), .u64 prot]⟩

def traceVmMunmapKp (m : Maps) (c : ProbeContext) (start len : UInt64) : OpCtx :=
  ⟨ioMunmap, (m.vmaDevMap.lookup (vmaKey c.pid start)).getD 0, Buffer.zero 96,
    format 128 [.lit (bytes "len="), .u64 len]⟩

def traceVfsLockFileEnter (filp : Option File) (cmd : UInt32) : Option OpCtx :=
  some ⟨ioLockFcntl, devFromFile filp, readFileName filp 96,
    format 128 [.lit (bytes "cmd="), .u64 cmd.toUInt64]⟩

/-- The context the entry handler of a call builds, if it gets that far. -/
def entryCtx (m : Maps) (c : ProbeContext) : Call → Option OpCtx
  | .vfsOpen path file => traceVfsOpenEnter path file
  | .vfsRead file count pos => traceVfsReadEnter file count pos
  | .vfsWrite file count pos => traceVfsWriteEnter file count pos
  | .vfsCreate dir dentry mode wantExcl => traceVfsCreateEnter dir dentry mode wantExcl
  | .vfsMkdir dir dentry mode => traceVfsMkdirEnter dir dentry mode
  | .vfsRmdir dir dentry => traceVfsRmdirEnter dir dentry
  | .vfsSymlink dir dentry oldname => traceVfsSymlinkEnter dir dentry oldname
  | .vfsRename rd => traceVfsRenameEnter rd
  | .vfsRenameLegacy newDir newDentry => traceVfsRenameLegacyKprobeFallback newDir newDentry
  | .vfsGetattr path requestMask queryFlags => traceVfsGetattrEnter path requestMask queryFlags
  | .vfsTruncate path length => traceVfsTruncateEnter path length
  | .vfsFchmod file mode => traceVfsFchmodEnter file mode
  | .vfsReadlink dentry buflen => traceVfsReadlinkEnter dentry buflen
  | .vfsReadv file vlen flags => traceVfsReadvEnter file vlen flags
  | .vfsWritev file vlen flags => traceVfsWritevEnter file vlen flags
  | .vfsUnlink dir dentry => traceVfsUnlinkKp dir dentry
  | .vfsLink oldDentry dir newDentry => traceVfsLinkKp oldDentry dir newDentry
  | .vfsFallocate file offset len => traceVfsFallocateKp file offset len
  | .iterateDir file => traceIterateDirEnter file
  | .doMmap file len prot => traceDoMmapKp file len prot
  | .vmMunmap start len => some (traceVmMunmapKp m c start len)
  | .vfsLockFile filp cmd => traceVfsLockFileEnter filp cmd

/-- The munmap entry deletes its mapping whether or not it found one. -/
def takeMapping (m : Maps) (c : ProbeContext) : Call → Maps
  | .vmMunmap start _ => {m with vmaDevMap := m.vmaDevMap.erase (vmaKey c.pid start)}
  | _ => m

def enter (m : Maps) (c : ProbeContext) (call : Call) : Maps :=
  match entryCtx m c call with
  | none => takeMapping m c call
  | some op => submitOrDrop (takeMapping m c call) c op

/-- The type each exit program passes to `finish_event`. -/
def exitType : Hook → UInt8
  | .vfsOpen => ioOpen
  | .vfsRead => ioRead
  | .vfsWrite => ioWrite
  | .vfsCreate => ioCreate
  | .vfsMkdir => ioMkdir
  | .vfsRmdir => ioRmdir
  | .vfsSymlink => ioSymlink
  | .vfsRename => ioRename
  | .vfsGetattr => ioStat
  | .vfsTruncate => ioTruncate
  | .vfsFchmod => ioFchmod
  | .vfsReadlink => ioReadlink
  | .vfsReadv => ioReadv
  | .vfsWritev => ioWritev
  | .vfsUnlink => ioUnlink
  | .vfsLink => ioLink
  | .vfsFallocate => ioFallocate
  | .iterateDir => ioGetdents
  | .doMmap => ioMmap
  | .vmMunmap => ioMunmap
  | .vfsLockFile => ioLockFcntl

/-- The device the mmap exit stores, when it stores one. -/
def trackedDevice (m : Maps) (c : ProbeContext) (ret : UInt64) : Option UInt32 :=
  match m.opState.lookup (opKey c.pidTgid ioMmap) with
  | some op => if 0 < asLong ret then some op.dev else none
  | none => none

def traceDoMmapKrp (m : Maps) (c : ProbeContext) (ret : UInt64) : Maps :=
  let m' := match trackedDevice m c ret with
    | some dev => {m with vmaDevMap := m.vmaDevMap.update c.vmaRoom (vmaKey c.pid ret) dev}
    | none => m
  finishEvent m' c ioMmap (if 0 < asLong ret then 0 else asS32 ret)

def leave (m : Maps) (c : ProbeContext) (hook : Hook) (ret : UInt64) : Maps :=
  match hook with
  | .doMmap => traceDoMmapKrp m c ret
  | hook => finishEvent m c (exitType hook) (asS32 ret)

def fire (m : Maps) : Firing → Maps
  | .enter c call => enter m c call
  | .leave c hook ret => leave m c hook ret

/-- What the entry of a call stores in the operation table. -/
def storedCtx (m : Maps) (c : ProbeContext) (call : Call) : Option OpCtx :=
  (entryCtx m c call).filter fun op => passMountFilter m.mountFilterCfg op.dev

theorem opKey_inj {id id' : UInt64} {t t' : UInt8} :
    opKey id t = opKey id' t' ↔ id = id' ∧ t = t' := by
  rw [opKey, opKey, OpKey.mk.injEq, ← UInt32.toNat_inj, ← UInt8.toNat_inj]
  simp

/-- Entry and exit programs of one function agree on its type, and no two
functions share a type. -/
theorem entryCtx_type {m : Maps} {c : ProbeContext} {call : Call} {op : OpCtx}
    (h : entryCtx m c call = some op) : op.type = exitType call.hook := by
  cases call
  case vfsRename rd | vfsGetattr path _ _ | vfsTruncate path _ | doMmap path _ _ =>
    all_goals first | cases rd | cases path
    all_goals simp only [entryCtx, traceVfsRenameEnter, traceVfsGetattrEnter,
      traceVfsTruncateEnter, traceDoMmapKp, reduceCtorEq, Option.some.injEq] at h
    subst h
    rfl
  all_goals cases h; rfl

theorem exitType_injective : Function.Injective exitType := by
  intro a b h
  cases a <;> cases b <;> first | rfl | exact absurd h (by decide)

theorem opKey_exitType_inj {id id' : UInt64} {hook hook' : Hook} :
    opKey id (exitType hook) = opKey id' (exitType hook') ↔ id = id' ∧ hook = hook' := by
  rw [opKey_inj, exitType_injective.eq_iff]

theorem storedCtx_some {m : Maps} {c : ProbeContext} {call : Call} {op : OpCtx} :
    storedCtx m c call = some op ↔
      entryCtx m c call = some op ∧ passMountFilter m.mountFilterCfg op.dev = true := by
  simp [storedCtx, Option.filter_eq_some_iff]

theorem trackedDevice_some {m : Maps} {c : ProbeContext} {ret : UInt64} {dev : UInt32} :
    trackedDevice m c ret = some dev ↔
      ∃ op, m.opState.lookup (opKey c.pidTgid ioMmap) = some op ∧ 0 < asLong ret ∧
        dev = op.dev := by
  unfold trackedDevice
  cases m.opState.lookup (opKey c.pidTgid ioMmap) <;> simp [eq_comm]

@[simp] theorem takeMapping_cfg (m : Maps) (c : ProbeContext) (call : Call) :
    (takeMapping m c call).mountFilterCfg = m.mountFilterCfg := by cases call <;> rfl

@[simp] theorem takeMapping_opState (m : Maps) (c : ProbeContext) (call : Call) :
    (takeMapping m c call).opState = m.opState := by cases call <;> rfl

@[simp] theorem takeMapping_events (m : Maps) (c : ProbeContext) (call : Call) :
    (takeMapping m c call).events = m.events := by cases call <;> rfl

/-- An entry changes the operation table by its stored context alone, and the
mapping table by taking a mapping; it submits nothing. -/
theorem enter_spec (m : Maps) (c : ProbeContext) (call : Call) :
    enter m c call = {m with
      opState := match storedCtx m c call with
        | some op => m.opState.update c.stateRoom (opKey c.pidTgid (exitType call.hook)) op
        | none => m.opState
      vmaDevMap := (takeMapping m c call).vmaDevMap} := by
  have hsame : takeMapping m c call = {m with vmaDevMap := (takeMapping m c call).vmaDevMap} := by
    cases call <;> rfl
  cases h : entryCtx m c call with
  | none =>
      have hs : storedCtx m c call = none := by simp [storedCtx, h]
      simp only [enter, h, hs]
      exact hsame
  | some op =>
      rw [← entryCtx_type h]
      cases hp : passMountFilter m.mountFilterCfg op.dev with
      | true =>
          have hs : storedCtx m c call = some op := storedCtx_some.mpr ⟨h, hp⟩
          simp [enter, h, hs, submitOrDrop, hp]
      | false =>
          have hs : storedCtx m c call = none := by simp [storedCtx, h, Option.filter, hp]
          simp only [enter, h, hs, submitOrDrop, takeMapping_cfg, hp, Bool.false_eq_true, if_false]
          exact hsame

@[simp] theorem enter_cfg (m : Maps) (c : ProbeContext) (call : Call) :
    (enter m c call).mountFilterCfg = m.mountFilterCfg := by simp [enter_spec]

@[simp] theorem enter_events (m : Maps) (c : ProbeContext) (call : Call) :
    (enter m c call).events = m.events := by simp [enter_spec]

theorem enter_vmaDevMap (m : Maps) (c : ProbeContext) (call : Call) :
    (enter m c call).vmaDevMap = (takeMapping m c call).vmaDevMap := by simp [enter_spec]

theorem enter_stores {m : Maps} {c : ProbeContext} {call : Call} {r : OpCtx}
    (hroom : c.stateRoom = true) (h : storedCtx m c call = some r) :
    (enter m c call).opState.lookup (opKey c.pidTgid (exitType call.hook)) = some r := by
  rw [enter_spec]
  simp only [h, hroom, HashMap.update_true, Finmap.lookup_insert]

/-- The events one exit adds, by the record it finds. -/
def exitEvents (m : Maps) (c : ProbeContext) (hook : Hook) (ret : UInt64) : List Event :=
  match m.opState.lookup (opKey c.pidTgid (exitType hook)) with
  | some op => if c.ringRoom then [eventOf c op (hook.reportedRet ret)] else []
  | none => []

theorem finishEvent_spec (m : Maps) (c : ProbeContext) (type : UInt8) (ret : Int32) :
    finishEvent m c type ret = {m with
      opState := m.opState.erase (opKey c.pidTgid type)
      events := m.events ++ match m.opState.lookup (opKey c.pidTgid type) with
        | some op => if c.ringRoom then [eventOf c op ret] else []
        | none => []} := by
  unfold finishEvent
  cases h : m.opState.lookup (opKey c.pidTgid type) with
  | none => simp [HashMap.erase_eq_self h]
  | some op => cases hr : c.ringRoom <;> simp [emitEvent, reserve, hr]

/-- An exit deletes its record and submits what it found; the mmap exit also
stores the device it tracks. -/
theorem leave_spec (m : Maps) (c : ProbeContext) (hook : Hook) (ret : UInt64) :
    leave m c hook ret = {m with
      opState := m.opState.erase (opKey c.pidTgid (exitType hook))
      events := m.events ++ exitEvents m c hook ret
      vmaDevMap := match hook, trackedDevice m c ret with
        | .doMmap, some dev => m.vmaDevMap.update c.vmaRoom (vmaKey c.pid ret) dev
        | _, _ => m.vmaDevMap} := by
  cases hook
  case doMmap =>
    simp only [leave, traceDoMmapKrp, finishEvent_spec, exitEvents, Hook.reportedRet,
      exitType, true_and]
    cases trackedDevice m c ret <;> rfl
  all_goals simp [leave, finishEvent_spec, exitEvents, Hook.reportedRet]

@[simp] theorem leave_cfg (m : Maps) (c : ProbeContext) (hook : Hook) (ret : UInt64) :
    (leave m c hook ret).mountFilterCfg = m.mountFilterCfg := by rw [leave_spec]

@[simp] theorem fire_cfg (m : Maps) (f : Firing) :
    (fire m f).mountFilterCfg = m.mountFilterCfg := by cases f <;> simp [fire]

end MonitoringTools.IosnoopProbes
