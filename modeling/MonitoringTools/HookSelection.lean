import MonitoringTools.CStrings
import MonitoringTools.FilesystemProbes

/-!
# Which VFS programs iosnoop and ioslower leave enabled

Both loaders walk over all programs of their object and switch each by
substring tests on its name and section. The programs stand here as their
sources declare them, in order; the two objects share everything but the
syscall programs of iosnoop. The kernel is what the loaders ask about it.
-/
namespace MonitoringTools.HookSelection
open CStrings FilesystemProbes

structure BpfProgram where
  name : CString
  sectionName : CString
  deriving DecidableEq, Repr

/-- The answers of `fentry_can_attach`, `get_func_param_count` and
`kernel_function_exists` for functions of the kernel image. -/
structure Kernel where
  fentryCanAttach : CString → Bool
  paramCount : CString → ℤ
  functionExists : CString → Bool

/-- Programs on system calls, which only iosnoop has. -/
def syscallPrograms : List BpfProgram :=
  [⟨cstr "trace_sys_open_entry", cstr "kprobe/__x64_sys_open"⟩,
    ⟨cstr "trace_sys_open_exit", cstr "kretprobe/__x64_sys_open"⟩,
    ⟨cstr "trace_sys_openat_entry", cstr "kprobe/__x64_sys_openat"⟩,
    ⟨cstr "trace_sys_openat_exit", cstr "kretprobe/__x64_sys_openat"⟩,
    ⟨cstr "trace_sys_read_entry", cstr "kprobe/__x64_sys_read"⟩,
    ⟨cstr "trace_sys_read_exit", cstr "kretprobe/__x64_sys_read"⟩,
    ⟨cstr "trace_sys_write_entry", cstr "kprobe/__x64_sys_write"⟩,
    ⟨cstr "trace_sys_write_exit", cstr "kretprobe/__x64_sys_write"⟩,
    ⟨cstr "trace_sys_mkdir_entry", cstr "kprobe/__x64_sys_mkdir"⟩,
    ⟨cstr "trace_sys_mkdir_exit", cstr "kretprobe/__x64_sys_mkdir"⟩,
    ⟨cstr "trace_sys_enter_mkdir", cstr "tracepoint/syscalls/sys_enter_mkdir"⟩,
    ⟨cstr "trace_sys_exit_mkdir", cstr "tracepoint/syscalls/sys_exit_mkdir"⟩,
    ⟨cstr "trace_sys_unlink_entry", cstr "kprobe/__x64_sys_unlink"⟩,
    ⟨cstr "trace_sys_unlink_exit", cstr "kretprobe/__x64_sys_unlink"⟩,
    ⟨cstr "trace_sys_enter_unlink", cstr "tracepoint/syscalls/sys_enter_unlink"⟩,
    ⟨cstr "trace_sys_exit_unlink", cstr "tracepoint/syscalls/sys_exit_unlink"⟩,
    ⟨cstr "trace_sys_rename_entry", cstr "kprobe/__x64_sys_rename"⟩,
    ⟨cstr "trace_sys_rename_exit", cstr "kretprobe/__x64_sys_rename"⟩,
    ⟨cstr "trace_sys_enter_rename", cstr "tracepoint/syscalls/sys_enter_rename"⟩,
    ⟨cstr "trace_sys_exit_rename", cstr "tracepoint/syscalls/sys_exit_rename"⟩,
    ⟨cstr "trace_sys_link_entry", cstr "kprobe/__x64_sys_link"⟩,
    ⟨cstr "trace_sys_link_exit", cstr "kretprobe/__x64_sys_link"⟩,
    ⟨cstr "trace_sys_enter_link", cstr "tracepoint/syscalls/sys_enter_link"⟩,
    ⟨cstr "trace_sys_exit_link", cstr "tracepoint/syscalls/sys_exit_link"⟩,
    ⟨cstr "trace_sys_symlink_entry", cstr "kprobe/__x64_sys_symlink"⟩,
    ⟨cstr "trace_sys_symlink_exit", cstr "kretprobe/__x64_sys_symlink"⟩,
    ⟨cstr "trace_sys_enter_symlink", cstr "tracepoint/syscalls/sys_enter_symlink"⟩,
    ⟨cstr "trace_sys_exit_symlink", cstr "tracepoint/syscalls/sys_exit_symlink"⟩,
    ⟨cstr "trace_sys_readlink_entry", cstr "kprobe/__x64_sys_readlink"⟩,
    ⟨cstr "trace_sys_readlink_exit", cstr "kretprobe/__x64_sys_readlink"⟩,
    ⟨cstr "trace_sys_truncate_entry", cstr "kprobe/__x64_sys_truncate"⟩,
    ⟨cstr "trace_sys_truncate_exit", cstr "kretprobe/__x64_sys_truncate"⟩,
    ⟨cstr "trace_sys_enter_truncate", cstr "tracepoint/syscalls/sys_enter_truncate"⟩,
    ⟨cstr "trace_sys_exit_truncate", cstr "tracepoint/syscalls/sys_exit_truncate"⟩,
    ⟨cstr "trace_sys_mmap_entry", cstr "kprobe/__x64_sys_mmap"⟩,
    ⟨cstr "trace_sys_mmap_exit", cstr "kretprobe/__x64_sys_mmap"⟩]

def vfsPrograms : List BpfProgram :=
  [⟨cstr "trace_vfs_open_enter", cstr "fentry/vfs_open"⟩,
    ⟨cstr "trace_vfs_open_exit", cstr "fexit/vfs_open"⟩,
    ⟨cstr "trace_vfs_read_enter", cstr "fentry/vfs_read"⟩,
    ⟨cstr "trace_vfs_read_exit", cstr "fexit/vfs_read"⟩,
    ⟨cstr "trace_vfs_write_enter", cstr "fentry/vfs_write"⟩,
    ⟨cstr "trace_vfs_write_exit", cstr "fexit/vfs_write"⟩,
    ⟨cstr "trace_vfs_create_enter", cstr "fentry/vfs_create"⟩,
    ⟨cstr "trace_vfs_create_exit", cstr "fexit/vfs_create"⟩,
    ⟨cstr "trace_vfs_mkdir_enter", cstr "fentry/vfs_mkdir"⟩,
    ⟨cstr "trace_vfs_mkdir_exit", cstr "fexit/vfs_mkdir"⟩,
    ⟨cstr "trace_vfs_rmdir_enter", cstr "fentry/vfs_rmdir"⟩,
    ⟨cstr "trace_vfs_rmdir_exit", cstr "fexit/vfs_rmdir"⟩,
    ⟨cstr "trace_vfs_symlink_enter", cstr "fentry/vfs_symlink"⟩,
    ⟨cstr "trace_vfs_symlink_exit", cstr "fexit/vfs_symlink"⟩,
    ⟨cstr "trace_vfs_rename_enter", cstr "fentry/vfs_rename"⟩,
    ⟨cstr "trace_vfs_rename_exit", cstr "fexit/vfs_rename"⟩,
    ⟨cstr "trace_vfs_getattr_enter", cstr "fentry/vfs_getattr"⟩,
    ⟨cstr "trace_vfs_getattr_exit", cstr "fexit/vfs_getattr"⟩,
    ⟨cstr "trace_vfs_truncate_enter", cstr "fentry/vfs_truncate"⟩,
    ⟨cstr "trace_vfs_truncate_exit", cstr "fexit/vfs_truncate"⟩,
    ⟨cstr "trace_vfs_fchmod_enter", cstr "fentry/vfs_fchmod"⟩,
    ⟨cstr "trace_vfs_fchmod_exit", cstr "fexit/vfs_fchmod"⟩,
    ⟨cstr "trace_vfs_readlink_enter", cstr "fentry/vfs_readlink"⟩,
    ⟨cstr "trace_vfs_readlink_exit", cstr "fexit/vfs_readlink"⟩,
    ⟨cstr "trace_vfs_readv_enter", cstr "fentry/vfs_readv"⟩,
    ⟨cstr "trace_vfs_readv_exit", cstr "fexit/vfs_readv"⟩,
    ⟨cstr "trace_vfs_writev_enter", cstr "fentry/vfs_writev"⟩,
    ⟨cstr "trace_vfs_writev_exit", cstr "fexit/vfs_writev"⟩,
    ⟨cstr "trace_vfs_unlink_kp", cstr "kprobe/vfs_unlink"⟩,
    ⟨cstr "trace_vfs_unlink_krp", cstr "kretprobe/vfs_unlink"⟩,
    ⟨cstr "trace_vfs_link_kp", cstr "kprobe/vfs_link"⟩,
    ⟨cstr "trace_vfs_link_krp", cstr "kretprobe/vfs_link"⟩,
    ⟨cstr "trace_vfs_fallocate_kp", cstr "kprobe/vfs_fallocate"⟩,
    ⟨cstr "trace_vfs_fallocate_krp", cstr "kretprobe/vfs_fallocate"⟩,
    ⟨cstr "trace_iterate_dir_enter", cstr "fentry/iterate_dir"⟩,
    ⟨cstr "trace_iterate_dir_exit", cstr "fexit/iterate_dir"⟩,
    ⟨cstr "trace_do_mmap_kp", cstr "kprobe/do_mmap"⟩,
    ⟨cstr "trace_do_mmap_krp", cstr "kretprobe/do_mmap"⟩,
    ⟨cstr "trace_vm_munmap_kp", cstr "kprobe/vm_munmap"⟩,
    ⟨cstr "trace_vm_munmap_krp", cstr "kretprobe/vm_munmap"⟩,
    ⟨cstr "trace_vfs_lock_file_enter", cstr "fentry/vfs_lock_file"⟩,
    ⟨cstr "trace_vfs_lock_file_exit", cstr "fexit/vfs_lock_file"⟩,
    ⟨cstr "trace_vfs_open_kprobe_fallback", cstr "kprobe/vfs_open"⟩,
    ⟨cstr "trace_vfs_open_kretprobe_fallback", cstr "kretprobe/vfs_open"⟩,
    ⟨cstr "trace_vfs_read_kprobe_fallback", cstr "kprobe/vfs_read"⟩,
    ⟨cstr "trace_vfs_read_kretprobe_fallback", cstr "kretprobe/vfs_read"⟩,
    ⟨cstr "trace_vfs_write_kprobe_fallback", cstr "kprobe/vfs_write"⟩,
    ⟨cstr "trace_vfs_write_kretprobe_fallback", cstr "kretprobe/vfs_write"⟩,
    ⟨cstr "trace_vfs_create_kprobe_fallback", cstr "kprobe/vfs_create"⟩,
    ⟨cstr "trace_vfs_create_legacy_fallback", cstr "kprobe/vfs_create"⟩,
    ⟨cstr "trace_vfs_create_kretprobe_fallback", cstr "kretprobe/vfs_create"⟩,
    ⟨cstr "trace_vfs_mkdir_kprobe_fallback", cstr "kprobe/vfs_mkdir"⟩,
    ⟨cstr "trace_vfs_mkdir_kretprobe_fallback", cstr "kretprobe/vfs_mkdir"⟩,
    ⟨cstr "trace_vfs_rmdir_kprobe_fallback", cstr "kprobe/vfs_rmdir"⟩,
    ⟨cstr "trace_vfs_rmdir_kretprobe_fallback", cstr "kretprobe/vfs_rmdir"⟩,
    ⟨cstr "trace_vfs_symlink_kprobe_fallback", cstr "kprobe/vfs_symlink"⟩,
    ⟨cstr "trace_vfs_symlink_kretprobe_fallback", cstr "kretprobe/vfs_symlink"⟩,
    ⟨cstr "trace_vfs_rename_kprobe_fallback", cstr "kprobe/vfs_rename"⟩,
    ⟨cstr "trace_vfs_rename_kretprobe_fallback", cstr "kretprobe/vfs_rename"⟩,
    ⟨cstr "trace_vfs_rename_legacy_kprobe_fallback", cstr "kprobe/vfs_rename"⟩,
    ⟨cstr "trace_vfs_rename_legacy_kretprobe_fallback", cstr "kretprobe/vfs_rename"⟩,
    ⟨cstr "trace_vfs_getattr_kprobe_fallback", cstr "kprobe/vfs_getattr"⟩,
    ⟨cstr "trace_vfs_getattr_kretprobe_fallback", cstr "kretprobe/vfs_getattr"⟩,
    ⟨cstr "trace_vfs_truncate_kprobe_fallback", cstr "kprobe/vfs_truncate"⟩,
    ⟨cstr "trace_vfs_truncate_kretprobe_fallback", cstr "kretprobe/vfs_truncate"⟩,
    ⟨cstr "trace_vfs_fchmod_kprobe_fallback", cstr "kprobe/vfs_fchmod"⟩,
    ⟨cstr "trace_vfs_fchmod_kretprobe_fallback", cstr "kretprobe/vfs_fchmod"⟩,
    ⟨cstr "trace_vfs_readlink_kprobe_fallback", cstr "kprobe/vfs_readlink"⟩,
    ⟨cstr "trace_vfs_readlink_kretprobe_fallback", cstr "kretprobe/vfs_readlink"⟩,
    ⟨cstr "trace_vfs_readv_kprobe_fallback", cstr "kprobe/vfs_readv"⟩,
    ⟨cstr "trace_vfs_readv_kretprobe_fallback", cstr "kretprobe/vfs_readv"⟩,
    ⟨cstr "trace_vfs_writev_kprobe_fallback", cstr "kprobe/vfs_writev"⟩,
    ⟨cstr "trace_vfs_writev_kretprobe_fallback", cstr "kretprobe/vfs_writev"⟩,
    ⟨cstr "trace_iterate_dir_kprobe_fallback", cstr "kprobe/iterate_dir"⟩,
    ⟨cstr "trace_iterate_dir_kretprobe_fallback", cstr "kretprobe/iterate_dir"⟩,
    ⟨cstr "trace_vfs_lock_file_kprobe_fallback", cstr "kprobe/vfs_lock_file"⟩,
    ⟨cstr "trace_vfs_lock_file_kretprobe_fallback", cstr "kretprobe/vfs_lock_file"⟩]

def iosnoopPrograms : List BpfProgram := syscallPrograms ++ vfsPrograms

def ioslowerPrograms : List BpfProgram := vfsPrograms

def vfsHooks : List (CString × ℤ) :=
  [(cstr "vfs_open", 2), (cstr "vfs_read", 4), (cstr "vfs_write", 4), (cstr "vfs_create", 5),
    (cstr "vfs_mkdir", 4), (cstr "vfs_rmdir", 3), (cstr "vfs_symlink", 4), (cstr "vfs_rename", 1),
    (cstr "vfs_getattr", 4), (cstr "vfs_truncate", 2), (cstr "vfs_fchmod", 2),
    (cstr "vfs_readlink", 3), (cstr "vfs_readv", 5), (cstr "vfs_writev", 5),
    (cstr "iterate_dir", 2), (cstr "vfs_lock_file", 4)]

def Kernel.vfsFentryFamilySupported (k : Kernel) : Bool :=
  vfsHooks.all fun hook => k.fentryCanAttach hook.1 && k.paramCount hook.1 == hook.2

def Kernel.legacyVfsCreate (k : Kernel) : Bool := k.paramCount (cstr "vfs_create") == 4

def Kernel.legacyVfsRename (k : Kernel) : Bool := k.paramCount (cstr "vfs_rename") == 6

namespace BpfProgram
variable (p : BpfProgram)

def isSyscall : Bool :=
  strncmpEq p.sectionName (cstr "tracepoint/syscalls/") 20 ||
    strncmpEq p.sectionName (cstr "kprobe/__x64_sys_") 17 ||
    strncmpEq p.sectionName (cstr "kretprobe/__x64_sys_") 20

def isFentry : Bool :=
  strncmpEq p.sectionName (cstr "fentry/") 7 || strncmpEq p.sectionName (cstr "fexit/") 6

def isFallback : Bool := strstr p.name (cstr "_fallback")

def isLegacy : Bool := strstr p.name (cstr "_legacy_fallback")

/-- The traced function: what follows the slash of the section name. -/
def target : Option CString := afterChar '/' p.sectionName

/-- A probe on the entry of its function, or on its return. -/
def isEntry : Bool :=
  strncmpEq p.sectionName (cstr "fentry/") 7 || strncmpEq p.sectionName (cstr "kprobe/") 7

def isReturn : Bool :=
  strncmpEq p.sectionName (cstr "fexit/") 6 || strncmpEq p.sectionName (cstr "kretprobe/") 10

end BpfProgram

/-- The switch a loader sets for a fallback program. -/
def enableFallback (k : Kernel) (p : BpfProgram) : Bool :=
  let enable := !k.vfsFentryFamilySupported && match p.target with
    | some target => k.functionExists target
    | none => true
  if strstr p.name (cstr "vfs_rename_legacy_kprobe_fallback") then enable && k.legacyVfsRename
  else if strstr p.name (cstr "vfs_rename_kprobe_fallback") then enable && !k.legacyVfsRename
  else if strstr p.name (cstr "vfs_create_kprobe_fallback") then enable && !k.legacyVfsCreate
  else if p.isLegacy then enable && k.legacyVfsCreate
  else enable

/-- A program no branch touches keeps the default of the library, enabled. -/
def ioslowerEnabled (k : Kernel) (p : BpfProgram) : Bool :=
  if p.isFentry then k.vfsFentryFamilySupported
  else if p.isFallback then enableFallback k p
  else true

def iosnoopEnabled (k : Kernel) (p : BpfProgram) : Bool :=
  if p.isSyscall then false
  else if p.isFentry then k.vfsFentryFamilySupported
  else if p.isFallback then enableFallback k p
  else true

def ioslowerLeft (k : Kernel) : List BpfProgram := ioslowerPrograms.filter (ioslowerEnabled k)

def iosnoopLeft (k : Kernel) : List BpfProgram := iosnoopPrograms.filter (iosnoopEnabled k)

structure WellSelected (k : Kernel) (left : List BpfProgram) : Prop where
  one_family : ∀ p ∈ left, ∀ q ∈ left, p.isFentry = true → q.isFallback = true → False
  one_entry : ∀ f, left.countP (fun p => p.target == some f && p.isEntry) ≤ 1
  one_return : ∀ f, left.countP (fun p => p.target == some f && p.isReturn) ≤ 1
  paired : ∀ f, 0 < left.countP (fun p => p.target == some f && p.isEntry) ↔
    0 < left.countP (fun p => p.target == some f && p.isReturn)
  targets_exist : ∀ p ∈ left, p.isFallback = true → ∃ f, p.target = some f ∧ k.functionExists f

/-- The kernel symbol of a traced function. -/
def symbol : Hook → CString
  | .vfsOpen => cstr "vfs_open"
  | .vfsRead => cstr "vfs_read"
  | .vfsWrite => cstr "vfs_write"
  | .vfsCreate => cstr "vfs_create"
  | .vfsMkdir => cstr "vfs_mkdir"
  | .vfsRmdir => cstr "vfs_rmdir"
  | .vfsSymlink => cstr "vfs_symlink"
  | .vfsRename => cstr "vfs_rename"
  | .vfsGetattr => cstr "vfs_getattr"
  | .vfsTruncate => cstr "vfs_truncate"
  | .vfsFchmod => cstr "vfs_fchmod"
  | .vfsReadlink => cstr "vfs_readlink"
  | .vfsReadv => cstr "vfs_readv"
  | .vfsWritev => cstr "vfs_writev"
  | .vfsUnlink => cstr "vfs_unlink"
  | .vfsLink => cstr "vfs_link"
  | .vfsFallocate => cstr "vfs_fallocate"
  | .iterateDir => cstr "iterate_dir"
  | .doMmap => cstr "do_mmap"
  | .vmMunmap => cstr "vm_munmap"
  | .vfsLockFile => cstr "vfs_lock_file"

/-- Which of its substring tests a fallback program meets first. -/
inductive Gate where
  | ungated | legacyRename | currentRename | currentCreate | legacyCreate
  deriving DecidableEq, Repr

inductive Kind where
  | default
  | fentry
  | fallback (gate : Gate)
  deriving DecidableEq, Repr

def BpfProgram.gate (p : BpfProgram) : Gate :=
  if strstr p.name (cstr "vfs_rename_legacy_kprobe_fallback") then .legacyRename
  else if strstr p.name (cstr "vfs_rename_kprobe_fallback") then .currentRename
  else if strstr p.name (cstr "vfs_create_kprobe_fallback") then .currentCreate
  else if p.isLegacy then .legacyCreate
  else .ungated

def BpfProgram.kind (p : BpfProgram) : Kind :=
  if p.isFentry then .fentry else if p.isFallback then .fallback p.gate else .default

def Gate.open (legacyCreate legacyRename : Bool) : Gate → Bool
  | .ungated => true
  | .legacyRename => legacyRename
  | .currentRename => !legacyRename
  | .currentCreate => !legacyCreate
  | .legacyCreate => legacyCreate

/-- The four kernel facts that decide a program of some kind. -/
def Kind.enabled (useFentry present legacyCreate legacyRename : Bool) : Kind → Bool
  | .default => true
  | .fentry => useFentry
  | .fallback gate => (!useFentry && present) && gate.open legacyCreate legacyRename

structure Role where
  target : Option CString
  entry : Bool
  isReturn : Bool
  isFentry : Bool
  isFallback : Bool
  kind : Kind
  deriving DecidableEq, Repr

def BpfProgram.role (p : BpfProgram) : Role :=
  ⟨p.target, p.isEntry, p.isReturn, p.isFentry, p.isFallback, p.kind⟩

structure Row where
  hook : Hook
  entry : Bool
  kind : Kind
  deriving DecidableEq, Repr

def Row.role (r : Row) : Role :=
  ⟨some (symbol r.hook), r.entry, !r.entry, r.kind == .fentry,
    match r.kind with | .fallback _ => true | _ => false, r.kind⟩

def vfsRows : List Row :=
  [⟨.vfsOpen, true, .fentry⟩, ⟨.vfsOpen, false, .fentry⟩, ⟨.vfsRead, true, .fentry⟩,
    ⟨.vfsRead, false, .fentry⟩, ⟨.vfsWrite, true, .fentry⟩, ⟨.vfsWrite, false, .fentry⟩,
    ⟨.vfsCreate, true, .fentry⟩, ⟨.vfsCreate, false, .fentry⟩, ⟨.vfsMkdir, true, .fentry⟩,
    ⟨.vfsMkdir, false, .fentry⟩, ⟨.vfsRmdir, true, .fentry⟩, ⟨.vfsRmdir, false, .fentry⟩,
    ⟨.vfsSymlink, true, .fentry⟩, ⟨.vfsSymlink, false, .fentry⟩, ⟨.vfsRename, true, .fentry⟩,
    ⟨.vfsRename, false, .fentry⟩, ⟨.vfsGetattr, true, .fentry⟩, ⟨.vfsGetattr, false, .fentry⟩,
    ⟨.vfsTruncate, true, .fentry⟩, ⟨.vfsTruncate, false, .fentry⟩, ⟨.vfsFchmod, true, .fentry⟩,
    ⟨.vfsFchmod, false, .fentry⟩, ⟨.vfsReadlink, true, .fentry⟩, ⟨.vfsReadlink, false, .fentry⟩,
    ⟨.vfsReadv, true, .fentry⟩, ⟨.vfsReadv, false, .fentry⟩, ⟨.vfsWritev, true, .fentry⟩,
    ⟨.vfsWritev, false, .fentry⟩, ⟨.vfsUnlink, true, .default⟩, ⟨.vfsUnlink, false, .default⟩,
    ⟨.vfsLink, true, .default⟩, ⟨.vfsLink, false, .default⟩, ⟨.vfsFallocate, true, .default⟩,
    ⟨.vfsFallocate, false, .default⟩, ⟨.iterateDir, true, .fentry⟩,
    ⟨.iterateDir, false, .fentry⟩, ⟨.doMmap, true, .default⟩, ⟨.doMmap, false, .default⟩,
    ⟨.vmMunmap, true, .default⟩, ⟨.vmMunmap, false, .default⟩, ⟨.vfsLockFile, true, .fentry⟩,
    ⟨.vfsLockFile, false, .fentry⟩, ⟨.vfsOpen, true, .fallback .ungated⟩,
    ⟨.vfsOpen, false, .fallback .ungated⟩, ⟨.vfsRead, true, .fallback .ungated⟩,
    ⟨.vfsRead, false, .fallback .ungated⟩, ⟨.vfsWrite, true, .fallback .ungated⟩,
    ⟨.vfsWrite, false, .fallback .ungated⟩, ⟨.vfsCreate, true, .fallback .currentCreate⟩,
    ⟨.vfsCreate, true, .fallback .legacyCreate⟩, ⟨.vfsCreate, false, .fallback .ungated⟩,
    ⟨.vfsMkdir, true, .fallback .ungated⟩, ⟨.vfsMkdir, false, .fallback .ungated⟩,
    ⟨.vfsRmdir, true, .fallback .ungated⟩, ⟨.vfsRmdir, false, .fallback .ungated⟩,
    ⟨.vfsSymlink, true, .fallback .ungated⟩, ⟨.vfsSymlink, false, .fallback .ungated⟩,
    ⟨.vfsRename, true, .fallback .currentRename⟩, ⟨.vfsRename, false, .fallback .ungated⟩,
    ⟨.vfsRename, true, .fallback .legacyRename⟩, ⟨.vfsRename, false, .fallback .ungated⟩,
    ⟨.vfsGetattr, true, .fallback .ungated⟩, ⟨.vfsGetattr, false, .fallback .ungated⟩,
    ⟨.vfsTruncate, true, .fallback .ungated⟩, ⟨.vfsTruncate, false, .fallback .ungated⟩,
    ⟨.vfsFchmod, true, .fallback .ungated⟩, ⟨.vfsFchmod, false, .fallback .ungated⟩,
    ⟨.vfsReadlink, true, .fallback .ungated⟩, ⟨.vfsReadlink, false, .fallback .ungated⟩,
    ⟨.vfsReadv, true, .fallback .ungated⟩, ⟨.vfsReadv, false, .fallback .ungated⟩,
    ⟨.vfsWritev, true, .fallback .ungated⟩, ⟨.vfsWritev, false, .fallback .ungated⟩,
    ⟨.iterateDir, true, .fallback .ungated⟩, ⟨.iterateDir, false, .fallback .ungated⟩,
    ⟨.vfsLockFile, true, .fallback .ungated⟩, ⟨.vfsLockFile, false, .fallback .ungated⟩]

theorem vfsPrograms_role : vfsPrograms.map BpfProgram.role = vfsRows.map Row.role := by
  decide +kernel

/-- Every function, once: its entry program outside the fallbacks. -/
def mainEntries : List Hook :=
  (vfsRows.filter fun r => r.entry && (r.kind == .fentry || r.kind == .default)).map Row.hook

theorem mem_mainEntries (h : Hook) : h ∈ mainEntries := by cases h <;> decide

theorem symbol_injective : Function.Injective symbol := by
  have hnodup : (mainEntries.map symbol).Nodup := by decide +kernel
  intro a b h
  exact List.inj_on_of_nodup_map hnodup (mem_mainEntries a) (mem_mainEntries b) h

def Role.enabled (k : Kernel) (r : Role) : Bool :=
  r.kind.enabled k.vfsFentryFamilySupported
    (match r.target with | some target => k.functionExists target | none => true)
    k.legacyVfsCreate k.legacyVfsRename

theorem ioslowerEnabled_role (k : Kernel) (p : BpfProgram) :
    ioslowerEnabled k p = p.role.enabled k := by
  simp only [ioslowerEnabled, enableFallback, BpfProgram.role, Role.enabled, BpfProgram.kind,
    BpfProgram.gate]
  split_ifs <;> simp [Kind.enabled, Gate.open]

/-- The syscall programs are all switched off, and no other program is one. -/
theorem iosnoopLeft_eq (k : Kernel) : iosnoopLeft k = ioslowerLeft k := by
  have hsyscall : ∀ p ∈ syscallPrograms, p.isSyscall = true := by
    rw [← List.all_eq_true]
    decide +kernel
  have hvfs : ∀ p ∈ vfsPrograms, p.isSyscall = false := by
    simp only [← Bool.not_eq_true']
    rw [← List.all_eq_true]
    decide +kernel
  have hoff : syscallPrograms.filter (iosnoopEnabled k) = [] := by
    rw [List.filter_eq_nil_iff]
    intro p hp
    simp [iosnoopEnabled, hsyscall p hp]
  have hsame : vfsPrograms.filter (iosnoopEnabled k) = vfsPrograms.filter (ioslowerEnabled k) := by
    refine List.filter_congr fun p hp => ?_
    simp [iosnoopEnabled, ioslowerEnabled, hvfs p hp]
  rw [iosnoopLeft, iosnoopPrograms, List.filter_append, hoff, hsame, List.nil_append]
  rfl

/-- How many programs of one side of a function are enabled, by four facts. -/
def rowCount (entry useFentry present legacyCreate legacyRename : Bool) (h : Hook) : ℕ :=
  vfsRows.countP fun r => (r.hook == h && r.entry == entry) &&
    r.kind.enabled useFentry present legacyCreate legacyRename

theorem rowCount_eq_kinds (entry useFentry present legacyCreate legacyRename : Bool) (h : Hook) :
    rowCount entry useFentry present legacyCreate legacyRename h =
      ((vfsRows.filter fun r => r.hook == h && r.entry == entry).map Row.kind).countP
        (Kind.enabled useFentry present legacyCreate legacyRename) := by
  rw [List.countP_map, List.countP_filter, rowCount]
  exact List.countP_congr fun r _ => by rw [Function.comp_apply, Bool.and_comm]

theorem countP_left (k : Kernel) (q : Role → Bool) :
    (ioslowerLeft k).countP (fun p => q p.role) =
      vfsRows.countP fun r => q r.role && r.role.enabled k := by
  have hrole : (ioslowerEnabled k) = fun p => p.role.enabled k := funext (ioslowerEnabled_role k)
  calc (ioslowerLeft k).countP (fun p => q p.role)
      = vfsPrograms.countP (fun p => q p.role && p.role.enabled k) := by
        rw [ioslowerLeft, ioslowerPrograms, List.countP_filter, hrole]
    _ = (vfsPrograms.map BpfProgram.role).countP (fun r => q r && r.enabled k) := by
        rw [List.countP_map]
        rfl
    _ = vfsRows.countP fun r => q r.role && r.role.enabled k := by
        rw [vfsPrograms_role, List.countP_map]
        rfl

theorem left_role {k : Kernel} {p : BpfProgram} (hp : p ∈ ioslowerLeft k) :
    p.role.enabled k = true ∧ ∃ r ∈ vfsRows, r.role = p.role := by
  obtain ⟨hmem, henabled⟩ := List.mem_filter.mp hp
  rw [ioslowerEnabled_role] at henabled
  have hrole : p.role ∈ vfsRows.map Row.role := by
    rw [← vfsPrograms_role]
    exact List.mem_map_of_mem hmem
  exact ⟨henabled, List.mem_map.mp hrole⟩

theorem rowCount_eq (k : Kernel) (entry : Bool) (h : Hook) :
    (vfsRows.countP fun r => (r.role.target == some (symbol h) && r.entry == entry) &&
      r.role.enabled k) = rowCount entry k.vfsFentryFamilySupported
        (k.functionExists (symbol h)) k.legacyVfsCreate k.legacyVfsRename h := by
  refine List.countP_congr fun r _ => ?_
  have htarget : (r.role.target == some (symbol h)) = (r.hook == h) := by
    rw [Bool.eq_iff_iff, beq_iff_eq, beq_iff_eq, Row.role, Option.some.injEq,
      symbol_injective.eq_iff]
  rw [htarget]
  by_cases hr : r.hook = h
  · rw [← hr]
    rfl
  · simp [hr]

theorem side_eq (k : Kernel) (h : Hook) (entry : Bool) {side : Role → Bool}
    (hside : ∀ r : Row, side r.role = (r.entry == entry)) :
    (ioslowerLeft k).countP (fun p => p.target == some (symbol h) && side p.role) =
      rowCount entry k.vfsFentryFamilySupported (k.functionExists (symbol h)) k.legacyVfsCreate
        k.legacyVfsRename h := by
  rw [← rowCount_eq]
  refine (countP_left k fun r => r.target == some (symbol h) && side r).trans ?_
  refine List.countP_congr fun r _ => ?_
  rw [hside]

theorem entries_eq (k : Kernel) (h : Hook) :
    (ioslowerLeft k).countP (fun p => p.target == some (symbol h) && p.isEntry) =
      rowCount true k.vfsFentryFamilySupported (k.functionExists (symbol h)) k.legacyVfsCreate
        k.legacyVfsRename h :=
  @side_eq k h true Role.entry fun r => (beq_true r.entry).symm

theorem returns_eq (k : Kernel) (h : Hook) :
    (ioslowerLeft k).countP (fun p => p.target == some (symbol h) && p.isReturn) =
      rowCount false k.vfsFentryFamilySupported (k.functionExists (symbol h)) k.legacyVfsCreate
        k.legacyVfsRename h :=
  @side_eq k h false Role.isReturn fun r => (beq_false r.entry).symm

theorem left_target {k : Kernel} {p : BpfProgram} (hp : p ∈ ioslowerLeft k) :
    ∃ h, p.target = some (symbol h) := by
  obtain ⟨-, r, -, hrole⟩ := left_role hp
  exact ⟨r.hook, (congrArg Role.target hrole).symm⟩

theorem countP_other {k : Kernel} {f : CString} (hf : ∀ h, f ≠ symbol h)
    (side : BpfProgram → Bool) :
    (ioslowerLeft k).countP (fun p => p.target == some f && side p) = 0 := by
  rw [List.countP_eq_zero]
  intro p hp hand
  obtain ⟨h, htarget⟩ := left_target hp
  rw [Bool.and_eq_true, beq_iff_eq, htarget, Option.some.injEq] at hand
  exact hf h hand.1.symm

/-- Exactly one program on each side, or none on both. -/
def Balanced (entries returns : ℕ) : Prop := entries ≤ 1 ∧ returns ≤ 1 ∧ (0 < entries ↔ 0 < returns)

instance (entries returns : ℕ) : Decidable (Balanced entries returns) :=
  inferInstanceAs (Decidable (_ ∧ _ ∧ (_ ↔ _)))

/-- Only rename can be unbalanced: its two return fallbacks, for the current
and for the legacy signature, are on together, since the tests on the legacy
names do not match them. -/
theorem rowCount_balanced_iff (h : Hook) : ∀ useFentry present legacyCreate legacyRename,
    Balanced (rowCount true useFentry present legacyCreate legacyRename h)
      (rowCount false useFentry present legacyCreate legacyRename h) ↔
    h ≠ .vfsRename ∨ useFentry = true ∨ present = false := by
  simp only [rowCount_eq_kinds]
  cases h <;> decide +kernel

theorem family_kind {k : Kernel} {p : BpfProgram} (hp : p ∈ ioslowerLeft k) :
    (p.isFentry = true → k.vfsFentryFamilySupported = true) ∧
    (p.isFallback = true → k.vfsFentryFamilySupported = false ∧
      ∃ f, p.target = some f ∧ k.functionExists f = true) := by
  obtain ⟨henabled, r, -, hrole⟩ := left_role hp
  have hfentry : p.isFentry = r.role.isFentry := (congrArg Role.isFentry hrole).symm
  have hfallback : p.isFallback = r.role.isFallback := (congrArg Role.isFallback hrole).symm
  have htarget : p.target = some (symbol r.hook) := (congrArg Role.target hrole).symm
  rw [← hrole] at henabled
  rw [hfentry, hfallback, htarget]
  obtain ⟨hook, entry, kind⟩ := r
  cases kind with
  | default => simp [Row.role]
  | fentry => simpa [Row.role, Role.enabled, Kind.enabled] using henabled
  | fallback gate =>
    simp only [Row.role, Role.enabled, Kind.enabled, Bool.and_eq_true, Bool.not_eq_true']
      at henabled
    exact ⟨by simp [Row.role], fun _ => ⟨henabled.1.1, _, rfl, henabled.1.2⟩⟩

theorem ioslower_wellSelected_iff (k : Kernel) :
    WellSelected k (ioslowerLeft k) ↔
      k.vfsFentryFamilySupported = true ∨ k.functionExists (cstr "vfs_rename") = false := by
  constructor
  · intro hwell
    have hrename := rowCount_balanced_iff .vfsRename k.vfsFentryFamilySupported
      (k.functionExists (symbol .vfsRename)) k.legacyVfsCreate k.legacyVfsRename
    have hbalanced : Balanced _ _ := ⟨hwell.one_entry (symbol .vfsRename),
      hwell.one_return (symbol .vfsRename), hwell.paired (symbol .vfsRename)⟩
    rw [entries_eq, returns_eq, hrename] at hbalanced
    exact hbalanced.resolve_left fun hne => hne rfl
  · intro hcond
    have hbalanced : ∀ f,
        Balanced ((ioslowerLeft k).countP fun p => p.target == some f && p.isEntry)
          ((ioslowerLeft k).countP fun p => p.target == some f && p.isReturn) := by
      intro f
      by_cases hf : ∃ h, f = symbol h
      · obtain ⟨h, rfl⟩ := hf
        rw [entries_eq, returns_eq, rowCount_balanced_iff]
        by_cases hh : h = .vfsRename
        · subst hh
          exact .inr hcond
        · exact .inl hh
      · rw [not_exists] at hf
        rw [countP_other hf, countP_other hf]
        exact ⟨by simp, by simp, by simp⟩
    refine ⟨?_, fun f => (hbalanced f).1, fun f => (hbalanced f).2.1,
      fun f => (hbalanced f).2.2, fun p hp hfallback => ((family_kind hp).2 hfallback).2⟩
    intro p hp q hq hfentry hfallback
    have hon := (family_kind hp).1 hfentry
    rw [((family_kind hq).2 hfallback).1] at hon
    exact Bool.false_ne_true hon

/-- Both loaders leave a well-selected set exactly when they use fentry or the
kernel has no `vfs_rename`. -/
theorem wellSelected_iff (k : Kernel) :
    (WellSelected k (iosnoopLeft k) ↔
      k.vfsFentryFamilySupported = true ∨ k.functionExists (cstr "vfs_rename") = false) ∧
    (WellSelected k (ioslowerLeft k) ↔
      k.vfsFentryFamilySupported = true ∨ k.functionExists (cstr "vfs_rename") = false) := by
  rw [iosnoopLeft_eq]
  exact ⟨ioslower_wellSelected_iff k, ioslower_wellSelected_iff k⟩

/-- A kernel without BTF, where fentry attaches to nothing. -/
def withoutBtf : Kernel := ⟨fun _ => false, fun _ => -2, fun _ => true⟩

/-- Without BTF two return programs of `vfs_rename` stay enabled in both tools. -/
theorem wellSelected_fails_withoutBtf :
    ¬ WellSelected withoutBtf (iosnoopLeft withoutBtf) ∧
    ¬ WellSelected withoutBtf (ioslowerLeft withoutBtf) := by
  have hnot : ¬ WellSelected withoutBtf (ioslowerLeft withoutBtf) := by
    intro hwell
    have htwo := hwell.one_return (symbol .vfsRename)
    rw [returns_eq] at htwo
    exact absurd htwo (by decide +kernel)
  rw [iosnoopLeft_eq]
  exact ⟨hnot, hnot⟩

end MonitoringTools.HookSelection
