import MonitoringTools.BpfHelpers

/-!
# What the two filesystem tracers share

Both programs walk the same kernel structures to find an operation's device
and name, read the same one-slot mount filter and key the table of file
mappings alike. A pointer is an option: `none` stands for null or unreadable.
Only the fields the probes read are kept.
-/
namespace MonitoringTools.FilesystemProbes
open BpfHelpers

structure SuperBlock where
  sDev : UInt32
  deriving DecidableEq, Repr

structure Dentry where
  dSb : Option SuperBlock
  dName : Option (List UInt8)
  deriving DecidableEq, Repr

structure Inode where
  iSb : Option SuperBlock
  deriving DecidableEq, Repr

structure Path where
  dentry : Option Dentry
  deriving DecidableEq, Repr

structure File where
  fPathDentry : Option Dentry
  fInode : Option Inode
  fFlags : UInt32
  deriving DecidableEq, Repr

/-- `newParent` is `none` on kernels whose structure lacks that field. -/
structure RenameData where
  newParent : Option (Option Dentry)
  newDir : Option Inode
  newDentry : Option Dentry
  deriving DecidableEq, Repr

def devFromSb : Option SuperBlock → UInt32
  | some sb => sb.sDev
  | none => 0

def devFromDentry (dentry : Option Dentry) : UInt32 := devFromSb (dentry.bind Dentry.dSb)

def devFromInode (inode : Option Inode) : UInt32 := devFromSb (inode.bind Inode.iSb)

def devFromPath (path : Option Path) : UInt32 := devFromDentry (path.bind Path.dentry)

/-- The device of a rename: the new parent's where the kernel has one. -/
def devFromRename (rd : RenameData) : UInt32 :=
  match rd.newParent with
  | some newParent => devFromDentry newParent
  | none => devFromInode rd.newDir

def readDentryName (dentry : Option Dentry) (n : ℕ) : Buffer n :=
  match dentry.bind Dentry.dName with
  | some name => Buffer.ofString n name
  | none => Buffer.zero n

def readPathName (path : Option Path) (n : ℕ) : Buffer n :=
  readDentryName (path.bind Path.dentry) n

def readFileName (file : Option File) (n : ℕ) : Buffer n :=
  readDentryName (file.bind File.fPathDentry) n

structure MountFilterCfg where
  enabled : UInt32
  devMajor : UInt32
  devMinor : UInt32
  deriving DecidableEq, Repr

/-- Both halves of a device number agree with the configured ones. -/
def MountFilterCfg.isDevice (cfg : MountFilterCfg) (dev : UInt32) : Bool :=
  cfg.devMajor == dev >>> 20 && cfg.devMinor == (dev &&& ((1 : UInt32) <<< 20 - 1))

/-- The device number the configuration stands for. -/
def MountFilterCfg.device (cfg : MountFilterCfg) : UInt32 := (cfg.devMajor <<< 20) ||| cfg.devMinor

/-- Within the kernel's 12-bit majors and 20-bit minors, the two halves agree
for exactly one device number. -/
theorem MountFilterCfg.isDevice_iff {cfg : MountFilterCfg} (hmajor : cfg.devMajor < 4096)
    (hminor : cfg.devMinor < 1048576) (dev : UInt32) :
    cfg.isDevice dev = true ↔ dev = cfg.device := by
  have hM : cfg.devMajor.toNat < 2 ^ 12 := hmajor
  have hm : cfg.devMinor.toNat < 2 ^ 20 := hminor
  have hd : cfg.device.toNat = cfg.devMajor.toNat * 2 ^ 20 + cfg.devMinor.toNat := by
    have hfit : cfg.devMajor.toNat <<< 20 % 2 ^ 32 = cfg.devMajor.toNat <<< 20 := by
      rw [Nat.shiftLeft_eq, Nat.mod_eq_of_lt (by omega)]
    simp only [device, UInt32.toNat_or, UInt32.toNat_shiftLeft, UInt32.toNat_ofNat]
    rw [show 20 % 2 ^ 32 % 32 = 20 from rfl, hfit, ← Nat.shiftLeft_add_eq_or_of_lt hm,
      Nat.shiftLeft_eq]
  have hhi : (dev >>> 20).toNat = dev.toNat / 2 ^ 20 := by simp [Nat.shiftRight_eq_div_pow]
  have hlo : (dev &&& ((1 : UInt32) <<< 20 - 1)).toNat = dev.toNat % 2 ^ 20 := by
    rw [UInt32.toNat_and, ← Nat.and_two_pow_sub_one_eq_mod]
    rfl
  simp only [isDevice, Bool.and_eq_true, beq_iff_eq, ← UInt32.toNat_inj, hd, hhi, hlo]
  omega

/-- Key of the mapping table: `(pid << 32) | (address >> 12)`. -/
def vmaKey (pid : UInt32) (addr : UInt64) : UInt64 := (pid.toUInt64 <<< 32) ||| (addr >>> 12)

/-- The upper half of a key mixes the process with the address bits from 44 up. -/
theorem vmaKey_toNat (pid : UInt32) (addr : UInt64) : (vmaKey pid addr).toNat =
    (pid.toNat ||| addr.toNat / 2 ^ 44) * 2 ^ 32 + addr.toNat / 2 ^ 12 % 2 ^ 32 := by
  have hpid : (pid.toUInt64 <<< 32).toNat = pid.toNat <<< 32 := by
    rw [UInt64.toNat_shiftLeft, UInt32.toNat_toUInt64, show (32 : UInt64).toNat % 64 = 32 from rfl,
      Nat.mod_eq_of_lt]
    rw [Nat.shiftLeft_eq]
    have := pid.toNat_lt
    omega
  have hpage : (addr >>> 12).toNat =
      (addr.toNat / 2 ^ 44) <<< 32 ||| addr.toNat / 2 ^ 12 % 2 ^ 32 := by
    rw [UInt64.toNat_shiftRight, show (12 : UInt64).toNat % 64 = 12 from rfl,
      Nat.shiftRight_eq_div_pow, ← Nat.shiftLeft_add_eq_or_of_lt (Nat.mod_lt _ (by decide)),
      Nat.shiftLeft_eq]
    omega
  rw [vmaKey, UInt64.toNat_or, hpid, hpage, ← Nat.or_assoc, ← Nat.shiftLeft_or_distrib,
    ← Nat.shiftLeft_add_eq_or_of_lt (Nat.mod_lt _ (by decide)), Nat.shiftLeft_eq]

theorem vmaKey_eq_iff {p q : UInt32} {a b : UInt64} : vmaKey p a = vmaKey q b ↔
    p.toNat ||| a.toNat / 2 ^ 44 = q.toNat ||| b.toNat / 2 ^ 44 ∧
    a.toNat / 2 ^ 12 % 2 ^ 32 = b.toNat / 2 ^ 12 % 2 ^ 32 := by
  rw [← UInt64.toNat_inj, vmaKey_toNat, vmaKey_toNat]
  omega

/-- A return value read as a signed long. -/
def asLong (ret : UInt64) : Int64 := ret.toInt64

theorem asLong_pos {ret : UInt64} (hzero : ret.toNat ≠ 0) (hsmall : ret.toNat < 2 ^ 63) :
    0 < asLong ret := by
  have hbits : (asLong ret).toInt = ret.toBitVec.toInt := by
    rw [← Int64.toInt_toBitVec, asLong, UInt64.toBitVec_toInt64]
  rw [Int64.lt_iff_toInt_lt, hbits, BitVec.toInt_eq_toNat_of_lt]
  · simp only [UInt64.toNat_toBitVec, Int64.toInt_zero]
    omega
  · rw [UInt64.toNat_toBitVec]
    omega

/-- A return value narrowed to `__s32`. -/
def asS32 (ret : UInt64) : Int32 := ret.toUInt32.toInt32

inductive Hook where
  | vfsOpen | vfsRead | vfsWrite | vfsCreate | vfsMkdir | vfsRmdir | vfsSymlink | vfsRename
  | vfsGetattr | vfsTruncate | vfsFchmod | vfsReadlink | vfsReadv | vfsWritev | vfsUnlink
  | vfsLink | vfsFallocate | iterateDir | doMmap | vmMunmap | vfsLockFile
  deriving DecidableEq, Repr

/-- One call of a traced function, with the arguments its probe reads. -/
inductive Call where
  | vfsOpen (path : Option Path) (file : Option File)
  | vfsRead (file : Option File) (count : UInt64) (pos : Option Int64)
  | vfsWrite (file : Option File) (count : UInt64) (pos : Option Int64)
  | vfsCreate (dir : Option Inode) (dentry : Option Dentry) (mode : UInt16) (wantExcl : Bool)
  | vfsMkdir (dir : Option Inode) (dentry : Option Dentry) (mode : UInt16)
  | vfsRmdir (dir : Option Inode) (dentry : Option Dentry)
  | vfsSymlink (dir : Option Inode) (dentry : Option Dentry) (oldname : Option (List UInt8))
  | vfsRename (rd : Option RenameData)
  | vfsRenameLegacy (newDir : Option Inode) (newDentry : Option Dentry)
  | vfsGetattr (path : Option Path) (requestMask queryFlags : UInt32)
  | vfsTruncate (path : Option Path) (length : Int64)
  | vfsFchmod (file : Option File) (mode : UInt16)
  | vfsReadlink (dentry : Option Dentry) (buflen : Int32)
  | vfsReadv (file : Option File) (vlen : UInt64) (flags : UInt32)
  | vfsWritev (file : Option File) (vlen : UInt64) (flags : UInt32)
  | vfsUnlink (dir : Option Inode) (dentry : Option Dentry)
  | vfsLink (oldDentry : Option Dentry) (dir : Option Inode) (newDentry : Option Dentry)
  | vfsFallocate (file : Option File) (offset len : Int64)
  | iterateDir (file : Option File)
  | doMmap (file : Option File) (len prot : UInt64)
  | vmMunmap (start len : UInt64)
  | vfsLockFile (filp : Option File) (cmd : UInt32)
  deriving DecidableEq, Repr

def Call.hook : Call → Hook
  | .vfsOpen .. => .vfsOpen
  | .vfsRead .. => .vfsRead
  | .vfsWrite .. => .vfsWrite
  | .vfsCreate .. => .vfsCreate
  | .vfsMkdir .. => .vfsMkdir
  | .vfsRmdir .. => .vfsRmdir
  | .vfsSymlink .. => .vfsSymlink
  | .vfsRename .. => .vfsRename
  | .vfsRenameLegacy .. => .vfsRename
  | .vfsGetattr .. => .vfsGetattr
  | .vfsTruncate .. => .vfsTruncate
  | .vfsFchmod .. => .vfsFchmod
  | .vfsReadlink .. => .vfsReadlink
  | .vfsReadv .. => .vfsReadv
  | .vfsWritev .. => .vfsWritev
  | .vfsUnlink .. => .vfsUnlink
  | .vfsLink .. => .vfsLink
  | .vfsFallocate .. => .vfsFallocate
  | .iterateDir .. => .iterateDir
  | .doMmap .. => .doMmap
  | .vmMunmap .. => .vmMunmap
  | .vfsLockFile .. => .vfsLockFile

inductive Firing where
  | enter (c : ProbeContext) (call : Call)
  | leave (c : ProbeContext) (hook : Hook) (ret : UInt64)
  deriving DecidableEq, Repr

def Firing.context : Firing → ProbeContext
  | .enter c _ => c
  | .leave c _ _ => c

/-- The return value an exit reports: a mapped address counts as success. -/
def Hook.reportedRet (hook : Hook) (ret : UInt64) : Int32 :=
  if hook = .doMmap ∧ 0 < asLong ret then 0 else asS32 ret

/-- An open of a directory entry on the device with the given number. -/
def Firing.openOn (c : ProbeContext) (dev : UInt32) (name : String) : Firing :=
  .enter c (.vfsOpen (some ⟨some ⟨some ⟨dev⟩, some (bytes name)⟩⟩) none)

end MonitoringTools.FilesystemProbes
