import MonitoringTools.CNumbers
import MonitoringTools.IosnoopProbes
import MonitoringTools.Runs

/-!
# The descriptor table of iosnoop

The loader remembers the path of every descriptor it saw opened, in a linked list of
its own. An event about a descriptor is printed with the path that the list knows. An
event is given by the strings that its arrays hold up to their terminators.
-/
namespace MonitoringTools.FdPathTable
open CStrings CNumbers IosnoopProbes Runs

/-- A string in a terminated array of the given size. -/
abbrev Text (n : ℕ) := {s : CString // s.length < n}

structure IoEvent where
  ts : UInt64
  pid : UInt32
  type : UInt8
  ret : Int32
  comm : Text 16
  fname : Text 256
  args : Text 256
  deriving DecidableEq

def sizeofIoEvent : ℕ := 560

def ioOpenat : UInt8 := 2
def ioClose : UInt8 := 5
def ioFstat : UInt8 := 8
def ioFchown : UInt8 := 22
def ioFtruncate : UInt8 := 24
def ioPread64 : UInt8 := 31
def ioPwrite64 : UInt8 := 32
def ioPreadv : UInt8 := 35
def ioPwritev : UInt8 := 36

def isFdBasedType (type : UInt8) : Bool :=
  [ioRead, ioWrite, ioClose, ioFstat, ioFchmod, ioFchown, ioFtruncate, ioPread64, ioPwrite64,
    ioReadv, ioWritev, ioPreadv, ioPwritev].contains type

/-- The names of the types from 1 on. -/
def ioTypeNames : List String :=
  ["OPEN", "OPENAT", "READ", "WRITE", "CLOSE", "STAT", "LSTAT", "FSTAT", "MKDIR", "MKDIRAT",
    "RMDIR", "UNLINK", "UNLINKAT", "RENAME", "RENAMEAT", "RENAMEAT2", "MOUNT", "UMOUNT2", "CHMOD",
    "FCHMOD", "CHOWN", "FCHOWN", "TRUNCATE", "FTRUNCATE", "LINK", "LINKAT", "SYMLINK",
    "SYMLINKAT", "READLINK", "READLINKAT", "PREAD64", "PWRITE64", "READV", "WRITEV", "PREADV",
    "PWRITEV", "URING_ENTER", "URING_SETUP", "URING_REGISTER", "IO_SETUP", "IO_SUBMIT",
    "IO_GETEVENTS", "IO_CANCEL", "IO_DESTROY", "MMAP", "MMAP2", "MUNMAP", "CREATE", "FALLOCATE",
    "GETDENTS", "LOCK_FCNTL", "LOCK_FLOCK"]

def ioTypeStr (type : UInt8) : String := ("UNKNOWN" :: ioTypeNames).getD type.toNat "UNKNOWN"

def intMax : ℤ := 2147483647

/-- The descriptor of an argument string, or -1. -/
def parseFdFromArgs (args : CString) : ℤ :=
  if ¬ strncmpEq args (cstr "fd=") 3 then -1
  else
    let parsed := strtol 10 (args.drop 3)
    if parsed.rest = args.drop 3 then -1
    else if parsed.value < 0 ∨ intMax < parsed.value then -1
    else parsed.value

structure FdPathEntry where
  pid : UInt32
  fd : ℤ
  path : CString
  deriving DecidableEq, Repr

/-- `snprintf(buf, n, "%s", s)`. -/
def snprintf (n : ℕ) (s : CString) : CString := s.take (n - 1)

def FdPathEntry.is (it : FdPathEntry) (pid : UInt32) (fd : ℤ) : Bool := it.pid == pid && it.fd == fd

def fdPathLookup (paths : List FdPathEntry) (pid : UInt32) (fd : ℤ) : Option CString :=
  (paths.find? (·.is pid fd)).map FdPathEntry.path

/-- The update in place, if there is an entry to update. -/
def overwrite (pid : UInt32) (fd : ℤ) (path : CString) :
    List FdPathEntry → Option (List FdPathEntry)
  | [] => none
  | it :: next =>
      if it.is pid fd then some ({it with path := snprintf 256 path} :: next)
      else (overwrite pid fd path next).map (it :: ·)

def fdPathSet (paths : List FdPathEntry) (pid : UInt32) (fd : ℤ) (path : CString) :
    List FdPathEntry :=
  if path = [] ∨ fd < 0 then paths
  else match overwrite pid fd path paths with
    | some paths => paths
    | none => ⟨pid, fd, snprintf 256 path⟩ :: paths

def fdPathDel (paths : List FdPathEntry) (pid : UInt32) (fd : ℤ) : List FdPathEntry :=
  paths.eraseP (·.is pid fd)

/-- An output line; the time of day is printed from the seconds. -/
structure Row where
  seconds : UInt64
  pid : Int32
  comm : CString
  type : String
  ret : Int32
  args : CString
  path : CString
  deriving DecidableEq

structure Handled where
  ret : ℤ
  paths : List FdPathEntry
  row : Option Row

def handleEvent (paths : List FdPathEntry) (dataSz : ℕ) (e : IoEvent) : Handled :=
  if dataSz < sizeofIoEvent then ⟨1, paths, none⟩
  else
    let argsDisp := if e.args.1 = [] then cstr "-" else snprintf 256 e.args.1
    let opened :=
      if (e.type = ioOpen ∨ e.type = ioOpenat) ∧ 0 ≤ e.ret.toInt then
        fdPathSet paths e.pid e.ret.toInt e.fname.1
      else paths
    let fd := parseFdFromArgs e.args.1
    let onFd := 0 ≤ fd ∧ isFdBasedType e.type
    let argsDisp := if onFd then snprintf 256 (cstr s!"fd={fd}") else argsDisp
    let pathDisp := if onFd then (fdPathLookup opened e.pid fd).getD e.fname.1 else e.fname.1
    let row : Row :=
      ⟨e.ts / 1000000000, e.pid.toInt32, e.comm.1, ioTypeStr e.type, e.ret, argsDisp, pathDisp⟩
    let left := if e.type = ioClose ∧ 0 ≤ fd then fdPathDel opened e.pid fd else opened
    ⟨0, left, some row⟩

/-- The list after a history of events, oldest first. -/
def pathsAfter (history : List IoEvent) : List FdPathEntry :=
  history.foldl (fun paths e => (handleEvent paths sizeofIoEvent e).paths) []

/-- A successful open of a named file as a descriptor of a process. -/
def Opens (e : IoEvent) (key : UInt32 × ℤ) : Prop :=
  (e.type = ioOpen ∨ e.type = ioOpenat) ∧ 0 ≤ e.ret.toInt ∧ (e.pid, e.ret.toInt) = key ∧
    e.fname.1 ≠ []

instance (e : IoEvent) (key : UInt32 × ℤ) : Decidable (Opens e key) :=
  inferInstanceAs (Decidable (_ ∧ _))

/-- The arguments give a descriptor: behind `fd=` stands a decimal number within the range of
`int` that is not negative. Whatever follows its digits does not matter. -/
def NamesFd (args : CString) (fd : ℤ) : Prop :=
  ∃ text negative n rest, args = cstr "fd=" ++ text ∧ Begins text negative n rest ∧
    fd = signed negative n ∧ 0 ≤ fd ∧ fd ≤ intMax

/-- The names of the types of calls on a descriptor. -/
def fdTypeNames : List String :=
  ["READ", "WRITE", "CLOSE", "FSTAT", "FCHMOD", "FCHOWN", "FTRUNCATE", "PREAD64", "PWRITE64",
    "READV", "WRITEV", "PREADV", "PWRITEV"]

/-- An event about a descriptor. -/
def IsAbout (e : IoEvent) (fd : ℤ) : Prop := ioTypeStr e.type ∈ fdTypeNames ∧ NamesFd e.args.1 fd

/-- A close whose arguments name a descriptor of a process. -/
def Closes (e : IoEvent) (key : UInt32 × ℤ) : Prop :=
  e.type = ioClose ∧ e.pid = key.1 ∧ NamesFd e.args.1 key.2

theorem strncmpEq_label (args : CString) : strncmpEq args (cstr "fd=") 3 = true ↔
    args = cstr "fd=" ++ args.drop 3 := by
  have hlabel : (cstr "fd=").take 3 = cstr "fd=" := by decide
  rw [strncmpEq, hlabel, beq_iff_eq]
  constructor
  · intro h
    rw [← h, List.take_append_drop]
  · intro h
    rw [h]
    rfl

theorem parseFdFromArgs_other {args : CString} (h : args ≠ cstr "fd=" ++ args.drop 3) :
    parseFdFromArgs args = -1 := by
  rw [parseFdFromArgs, if_pos ((strncmpEq_label args).not.mpr h)]

/-- Where `strtol` saturates its value is out of the range of `int` before and after. -/
theorem parseFdFromArgs_label (text : CString) : parseFdFromArgs (cstr "fd=" ++ text) =
    match scan 10 text with
    | none => -1
    | some (negative, n, _) =>
        if signed negative n < 0 ∨ intMax < signed negative n then -1 else signed negative n := by
  have hlabel := (strncmpEq_label (cstr "fd=" ++ text)).mpr rfl
  have htext : (cstr "fd=" ++ text).drop 3 = text := rfl
  rw [parseFdFromArgs, if_neg (not_not.mpr hlabel), htext, strtol_eq_scan]
  cases hscan : scan 10 text with
  | none => exact if_pos rfl
  | some found =>
      obtain ⟨negative, n, rest⟩ := found
      have hrest := (scan_ten_iff.mp hscan).rest_ne
      have hv : (if negative = true then -(n : ℤ) else n) = signed negative n := rfl
      dsimp only
      rw [hv]
      generalize signed negative n = v
      by_cases hmax : longMax < v
      · have hlong : intMax < v := lt_trans (by decide) hmax
        have hout : longMax < 0 ∨ intMax < longMax := by decide
        rw [if_pos hmax, if_neg hrest, if_pos hout, if_pos (Or.inr hlong)]
      by_cases hmin : v < longMin
      · have hlong : v < 0 := lt_trans hmin (by decide)
        have hout : longMin < 0 ∨ intMax < longMin := by decide
        rw [if_neg hmax, if_pos hmin, if_neg hrest, if_pos hout, if_pos (Or.inl hlong)]
      · rw [if_neg hmax, if_neg hmin, if_neg hrest]

theorem namesFd_iff {args : CString} {fd : ℤ} :
    NamesFd args fd ↔ 0 ≤ fd ∧ parseFdFromArgs args = fd := by
  constructor
  · rintro ⟨text, negative, n, rest, rfl, hbegins, rfl, hlow, hhigh⟩
    rw [parseFdFromArgs_label, scan_ten_iff.mpr hbegins]
    exact ⟨hlow, if_neg (not_or.mpr ⟨not_lt.mpr hlow, not_lt.mpr hhigh⟩)⟩
  · rintro ⟨hlow, hparse⟩
    by_cases hlabel : args = cstr "fd=" ++ args.drop 3
    · rw [hlabel, parseFdFromArgs_label] at hparse
      cases hscan : scan 10 (args.drop 3) with
      | none =>
          simp only [hscan] at hparse
          omega
      | some found =>
          obtain ⟨negative, n, rest⟩ := found
          simp only [hscan] at hparse
          by_cases hrange : signed negative n < 0 ∨ intMax < signed negative n
          · rw [if_pos hrange] at hparse
            omega
          · rw [if_neg hrange] at hparse
            rw [hparse] at hrange
            exact ⟨_, negative, n, rest, hlabel, scan_ten_iff.mp hscan, hparse.symm, hlow,
              not_lt.mp (not_or.mp hrange).2⟩
    · rw [parseFdFromArgs_other hlabel] at hparse
      omega

theorem parseFdFromArgs_neg {args : CString} (h : parseFdFromArgs args < 0) :
    parseFdFromArgs args = -1 := by
  by_cases hlabel : args = cstr "fd=" ++ args.drop 3
  · rw [hlabel, parseFdFromArgs_label] at h ⊢
    cases hscan : scan 10 (args.drop 3) with
    | none => rfl
    | some found =>
        simp only [hscan] at h ⊢
        split at h
        next hrange => exact if_pos hrange
        next hrange => exact absurd (.inl h) hrange
  · exact parseFdFromArgs_other hlabel

instance (args : CString) (fd : ℤ) : Decidable (NamesFd args fd) :=
  decidable_of_iff _ namesFd_iff.symm

instance (e : IoEvent) (fd : ℤ) : Decidable (IsAbout e fd) :=
  inferInstanceAs (Decidable (_ ∧ _))

instance (e : IoEvent) (key : UInt32 × ℤ) : Decidable (Closes e key) :=
  inferInstanceAs (Decidable (_ ∧ _))

/-- The parse gives what the arguments name, and -1 if they name nothing. -/
theorem parseFdFromArgs_eq_iff {args : CString} {fd : ℤ} : parseFdFromArgs args = fd ↔
    NamesFd args fd ∨ fd = -1 ∧ ¬ ∃ named, NamesFd args named := by
  simp only [namesFd_iff, exists_eq_right']
  constructor
  · rintro rfl
    by_cases hlow : 0 ≤ parseFdFromArgs args
    · exact .inl ⟨hlow, rfl⟩
    · exact .inr ⟨parseFdFromArgs_neg (not_le.mp hlow), hlow⟩
  · rintro (⟨-, hfd⟩ | ⟨rfl, hneg⟩)
    · exact hfd
    · exact parseFdFromArgs_neg (not_le.mp hneg)

theorem isFdBasedType_iff (type : UInt8) :
    isFdBasedType type = true ↔ ioTypeStr type ∈ fdTypeNames := by
  have hall : ∀ n : Fin 256, isFdBasedType (UInt8.ofNat n) = true ↔
      ioTypeStr (UInt8.ofNat n) ∈ fdTypeNames := by decide +kernel
  simpa using hall ⟨type.toNat, type.toNat_lt⟩

theorem isAbout_iff {e : IoEvent} {fd : ℤ} : IsAbout e fd ↔
    (0 ≤ parseFdFromArgs e.args.1 ∧ isFdBasedType e.type = true) ∧
      parseFdFromArgs e.args.1 = fd := by
  rw [IsAbout, ← isFdBasedType_iff, namesFd_iff]
  constructor
  · rintro ⟨htype, hlow, rfl⟩
    exact ⟨⟨hlow, htype⟩, rfl⟩
  · rintro ⟨⟨hlow, htype⟩, rfl⟩
    exact ⟨htype, hlow, rfl⟩

theorem closes_iff {e : IoEvent} {key : UInt32 × ℤ} : Closes e key ↔ e.type = ioClose ∧
    0 ≤ parseFdFromArgs e.args.1 ∧ (e.pid, parseFdFromArgs e.args.1) = key := by
  rw [Closes, namesFd_iff, Prod.ext_iff]
  constructor
  · rintro ⟨htype, hpid, hlow, hfd⟩
    exact ⟨htype, hfd ▸ hlow, hpid, hfd⟩
  · rintro ⟨htype, hlow, hpid, hfd⟩
    exact ⟨htype, hpid, hfd ▸ hlow, hfd⟩

/-- The name belongs to the latest open of the descriptor, and no close of it came
after that. -/
def OpenAs (history : List IoEvent) (key : UInt32 × ℤ) (name : CString) : Prop :=
  ∃ before e after, history = before ++ e :: after ∧ Opens e key ∧ e.fname.1 = name ∧
    ∀ later ∈ after, ¬ Opens later key ∧ ¬ Closes later key

def FdPathEntry.key (it : FdPathEntry) : UInt32 × ℤ := (it.pid, it.fd)

/-- What the table guarantees after a history, and for the event that comes next. -/
structure TracksPaths (history : List IoEvent) (e : IoEvent) : Prop where
  /-- No two entries for one descriptor. -/
  nodup : ((pathsAfter history).map FdPathEntry.key).Nodup
  /-- The list is a finite map from the descriptors that are open to their names. -/
  lookup_iff : ∀ pid fd name,
    fdPathLookup (pathsAfter history) pid fd = some name ↔ OpenAs history (pid, fd) name
  /-- The parse finds just the descriptors that arguments name. -/
  parsed : ∀ fd, parseFdFromArgs e.args.1 = fd ↔
    NamesFd e.args.1 fd ∨ fd = -1 ∧ ¬ ∃ named, NamesFd e.args.1 named
  /-- An event about an open descriptor is printed with the name of its open. -/
  printed : ∀ row ∈ (handleEvent (pathsAfter history) sizeofIoEvent e).row, ∀ fd name,
    IsAbout e fd → OpenAs history (e.pid, fd) name → row.path = name
  /-- Any other event is printed with a name of its own. -/
  own : ∀ row ∈ (handleEvent (pathsAfter history) sizeofIoEvent e).row,
    (¬ ∃ fd name, IsAbout e fd ∧ OpenAs history (e.pid, fd) name) → row.path = e.fname.1
  /-- A line is printed in any case, and a close takes away its own descriptor only. -/
  close : (handleEvent (pathsAfter history) sizeofIoEvent e).row.isSome = true ∧
    (e.type = ioClose → ∀ pid fd, fdPathLookup (pathsAfter (history ++ [e])) pid fd =
      if Closes e (pid, fd) then none else fdPathLookup (pathsAfter history) pid fd)

theorem FdPathEntry.is_iff {it : FdPathEntry} {pid : UInt32} {fd : ℤ} :
    it.is pid fd = true ↔ it.key = (pid, fd) := by
  simp [FdPathEntry.is, FdPathEntry.key]

theorem fdPathLookup_cons (it : FdPathEntry) (next : List FdPathEntry) (pid : UInt32) (fd : ℤ) :
    fdPathLookup (it :: next) pid fd =
      if it.key = (pid, fd) then some it.path else fdPathLookup next pid fd := by
  rw [fdPathLookup, List.find?_cons]
  by_cases h : it.key = (pid, fd)
  · rw [if_pos h, FdPathEntry.is_iff.mpr h]
    rfl
  · rw [if_neg h, Bool.eq_false_iff.mpr (FdPathEntry.is_iff.not.mpr h)]
    rfl

theorem fdPathLookup_eq_none {paths : List FdPathEntry} {pid : UInt32} {fd : ℤ}
    (h : (pid, fd) ∉ paths.map FdPathEntry.key) : fdPathLookup paths pid fd = none := by
  induction paths with
  | nil => rfl
  | cons it next ih =>
      rw [List.map_cons, List.mem_cons, not_or] at h
      rw [fdPathLookup_cons, if_neg (Ne.symm h.1), ih h.2]

theorem overwrite_eq_none {paths : List FdPathEntry} {pid : UInt32} {fd : ℤ} {path : CString}
    (h : overwrite pid fd path paths = none) : (pid, fd) ∉ paths.map FdPathEntry.key := by
  induction paths with
  | nil => exact List.not_mem_nil
  | cons it next ih =>
      rw [overwrite] at h
      split at h
      next => cases h
      next hne =>
          rw [List.map_cons, List.mem_cons, not_or]
          exact ⟨fun heq => hne (FdPathEntry.is_iff.mpr heq.symm), ih (Option.map_eq_none_iff.mp h)⟩

theorem keys_overwrite {paths paths' : List FdPathEntry} {pid : UInt32} {fd : ℤ} {path : CString}
    (h : overwrite pid fd path paths = some paths') :
    paths'.map FdPathEntry.key = paths.map FdPathEntry.key := by
  induction paths generalizing paths' with
  | nil => cases h
  | cons it next ih =>
      rw [overwrite] at h
      split at h
      next =>
          cases h
          rfl
      next =>
          obtain ⟨rest, hrest, rfl⟩ := Option.map_eq_some_iff.mp h
          rw [List.map_cons, List.map_cons, ih hrest]

theorem lookup_overwrite {paths paths' : List FdPathEntry} {pid : UInt32} {fd : ℤ} {path : CString}
    (h : overwrite pid fd path paths = some paths') (pid' : UInt32) (fd' : ℤ) :
    fdPathLookup paths' pid' fd' =
      if (pid, fd) = (pid', fd') then some (snprintf 256 path) else fdPathLookup paths pid' fd' := by
  induction paths generalizing paths' with
  | nil => cases h
  | cons it next ih =>
      rw [overwrite] at h
      split at h
      next his =>
          cases h
          have hkey : it.key = (pid, fd) := FdPathEntry.is_iff.mp his
          have hkept : FdPathEntry.key {it with path := snprintf 256 path} = it.key := rfl
          rw [fdPathLookup_cons, fdPathLookup_cons, hkept, hkey]
          split <;> rfl
      next hne =>
          obtain ⟨rest, hrest, rfl⟩ := Option.map_eq_some_iff.mp h
          rw [fdPathLookup_cons, fdPathLookup_cons, ih hrest]
          by_cases hother : (pid, fd) = (pid', fd')
          · have hkey : it.key ≠ (pid', fd') := fun heq =>
              hne (FdPathEntry.is_iff.mpr (heq.trans hother.symm))
            rw [if_neg hkey, if_pos hother, if_pos hother]
          · rw [if_neg hother, if_neg hother]

theorem lookup_fdPathSet {paths : List FdPathEntry} {pid : UInt32} {fd : ℤ} {path : CString}
    (hpath : path ≠ []) (hfd : 0 ≤ fd) (pid' : UInt32) (fd' : ℤ) :
    fdPathLookup (fdPathSet paths pid fd path) pid' fd' =
      if (pid, fd) = (pid', fd') then some (snprintf 256 path) else fdPathLookup paths pid' fd' := by
  rw [fdPathSet, if_neg (not_or.mpr ⟨hpath, not_lt.mpr hfd⟩)]
  split
  next h => exact lookup_overwrite h pid' fd'
  next => rw [fdPathLookup_cons]; rfl

theorem nodup_fdPathSet {paths : List FdPathEntry} (h : (paths.map FdPathEntry.key).Nodup)
    (pid : UInt32) (fd : ℤ) (path : CString) :
    ((fdPathSet paths pid fd path).map FdPathEntry.key).Nodup := by
  rw [fdPathSet]
  split
  next => exact h
  next =>
      split
      next hsome => rwa [keys_overwrite hsome]
      next hnone => exact List.nodup_cons.mpr ⟨overwrite_eq_none hnone, h⟩

theorem fdPathDel_cons (it : FdPathEntry) (next : List FdPathEntry) (pid : UInt32) (fd : ℤ) :
    fdPathDel (it :: next) pid fd =
      if it.key = (pid, fd) then next else it :: fdPathDel next pid fd := by
  simp only [fdPathDel, List.eraseP_cons, Bool.cond_eq_ite, FdPathEntry.is_iff]

/-- Deleting clears one key, as no other entry has it. -/
theorem lookup_fdPathDel {paths : List FdPathEntry} (h : (paths.map FdPathEntry.key).Nodup)
    (pid : UInt32) (fd : ℤ) (pid' : UInt32) (fd' : ℤ) :
    fdPathLookup (fdPathDel paths pid fd) pid' fd' =
      if (pid, fd) = (pid', fd') then none else fdPathLookup paths pid' fd' := by
  induction paths with
  | nil => exact (ite_self none).symm
  | cons it next ih =>
      obtain ⟨hnew, hnext⟩ := List.nodup_cons.mp h
      rw [fdPathDel_cons]
      split
      next hkey =>
          rw [fdPathLookup_cons, hkey]
          split
          next heq => exact fdPathLookup_eq_none (heq ▸ hkey ▸ hnew)
          next => rfl
      next hne =>
          rw [fdPathLookup_cons, fdPathLookup_cons, ih hnext]
          by_cases hother : (pid, fd) = (pid', fd')
          · rw [if_neg (hother ▸ hne), if_pos hother, if_pos hother]
          · rw [if_neg hother, if_neg hother]

theorem nodup_fdPathDel {paths : List FdPathEntry} (h : (paths.map FdPathEntry.key).Nodup)
    (pid : UInt32) (fd : ℤ) : ((fdPathDel paths pid fd).map FdPathEntry.key).Nodup :=
  h.sublist (List.eraseP_sublist.map _)

/-- What an event does to a descriptor: names it, forgets it or neither. -/
def effect (e : IoEvent) (key : UInt32 × ℤ) : Option (Option CString) :=
  if Opens e key then some (some e.fname.1) else if Closes e key then some none else none

theorem handleEvent_paths (paths : List FdPathEntry) (e : IoEvent) :
    (handleEvent paths sizeofIoEvent e).paths =
      if e.type = ioOpen ∨ e.type = ioOpenat then
        if 0 ≤ e.ret.toInt then fdPathSet paths e.pid e.ret.toInt e.fname.1 else paths
      else if e.type = ioClose ∧ 0 ≤ parseFdFromArgs e.args.1 then
        fdPathDel paths e.pid (parseFdFromArgs e.args.1)
      else paths := by
  have hclose : e.type = ioOpen ∨ e.type = ioOpenat → ¬ e.type = ioClose := by
    rintro (h | h) <;> rw [h] <;> decide
  rw [handleEvent, if_neg (lt_irrefl _)]
  by_cases hopen : e.type = ioOpen ∨ e.type = ioOpenat
  · simp only [hopen, hclose hopen, true_and, false_and, if_true, if_false]
  · simp only [hopen, false_and, if_false]

theorem lookup_handleEvent {paths : List FdPathEntry} (h : (paths.map FdPathEntry.key).Nodup)
    (e : IoEvent) (pid : UInt32) (fd : ℤ) :
    fdPathLookup (handleEvent paths sizeofIoEvent e).paths pid fd =
      (effect e (pid, fd)).getD (fdPathLookup paths pid fd) := by
  rw [handleEvent_paths]
  by_cases hopen : e.type = ioOpen ∨ e.type = ioOpenat
  · have hnot : ¬ Closes e (pid, fd) := by
      intro hcloses
      have hclose := hcloses.1
      rcases hopen with h | h <;> rw [h] at hclose <;> exact absurd hclose (by decide)
    rw [if_pos hopen, effect, if_neg hnot]
    by_cases hret : 0 ≤ e.ret.toInt
    · rw [if_pos hret]
      by_cases hname : e.fname.1 = []
      · have hno : ¬ Opens e (pid, fd) := fun hopens => hopens.2.2.2 hname
        rw [fdPathSet, if_pos (.inl hname), if_neg hno]
        rfl
      · have hopens : Opens e (pid, fd) ↔ (e.pid, e.ret.toInt) = (pid, fd) :=
          ⟨fun h => h.2.2.1, fun h => ⟨hopen, hret, h, hname⟩⟩
        have hwhole : snprintf 256 e.fname.1 = e.fname.1 :=
          List.take_of_length_le (Nat.le_of_lt_succ e.fname.2)
        simp only [lookup_fdPathSet hname hret, hopens, hwhole]
        split <;> rfl
    · have hno : ¬ Opens e (pid, fd) := fun hopens => hret hopens.2.1
      rw [if_neg hret, if_neg hno]
      rfl
  · have hno : ¬ Opens e (pid, fd) := fun hopens => hopen hopens.1
    rw [if_neg hopen, effect, if_neg hno]
    by_cases hclose : e.type = ioClose ∧ 0 ≤ parseFdFromArgs e.args.1
    · have hcloses : Closes e (pid, fd) ↔ (e.pid, parseFdFromArgs e.args.1) = (pid, fd) :=
        ⟨fun h => (closes_iff.mp h).2.2, fun h => closes_iff.mpr ⟨hclose.1, hclose.2, h⟩⟩
      simp only [if_pos hclose, lookup_fdPathDel h, hcloses]
      split <;> rfl
    · have hnot : ¬ Closes e (pid, fd) := fun hcloses =>
        hclose ⟨hcloses.1, (closes_iff.mp hcloses).2.1⟩
      rw [if_neg hclose, if_neg hnot]
      rfl

theorem nodup_handleEvent {paths : List FdPathEntry} (h : (paths.map FdPathEntry.key).Nodup)
    (e : IoEvent) : ((handleEvent paths sizeofIoEvent e).paths.map FdPathEntry.key).Nodup := by
  rw [handleEvent_paths]
  split_ifs
  · exact nodup_fdPathSet h _ _ _
  · exact h
  · exact nodup_fdPathDel h _ _
  · exact h

theorem pathsAfter_concat (history : List IoEvent) (e : IoEvent) :
    pathsAfter (history ++ [e]) = (handleEvent (pathsAfter history) sizeofIoEvent e).paths := by
  rw [pathsAfter, List.foldl_append]
  rfl

theorem nodup_pathsAfter (history : List IoEvent) :
    ((pathsAfter history).map FdPathEntry.key).Nodup := by
  induction history using List.reverseRecOn with
  | nil => exact List.nodup_nil
  | append_singleton history e ih =>
      rw [pathsAfter_concat]
      exact nodup_handleEvent ih e

/-- The list after a history is the map that the effects leave. -/
theorem lookup_pathsAfter (history : List IoEvent) (pid : UInt32) (fd : ℤ) :
    fdPathLookup (pathsAfter history) pid fd = content effect history (pid, fd) := by
  induction history using List.reverseRecOn with
  | nil => rfl
  | append_singleton history e ih =>
      rw [pathsAfter_concat, lookup_handleEvent (nodup_pathsAfter history), ih, content_concat]

theorem effect_eq_some_iff {e : IoEvent} {key : UInt32 × ℤ} {name : CString} :
    effect e key = some (some name) ↔ Opens e key ∧ e.fname.1 = name := by
  rw [effect]
  split_ifs with hopens <;> simp [hopens]

theorem effect_eq_none_iff {e : IoEvent} {key : UInt32 × ℤ} :
    effect e key = none ↔ ¬ Opens e key ∧ ¬ Closes e key := by
  rw [effect]
  split_ifs with hopens hcloses <;> simp [*]

theorem lookup_pathsAfter_iff (history : List IoEvent) (pid : UInt32) (fd : ℤ) (name : CString) :
    fdPathLookup (pathsAfter history) pid fd = some name ↔ OpenAs history (pid, fd) name := by
  rw [lookup_pathsAfter, content_eq_some_iff]
  simp only [OpenAs, effect_eq_some_iff, effect_eq_none_iff, and_assoc]

theorem row_path {history : List IoEvent} {e : IoEvent} {row : Row}
    (h : row ∈ (handleEvent (pathsAfter history) sizeofIoEvent e).row) : row.path =
      if 0 ≤ parseFdFromArgs e.args.1 ∧ isFdBasedType e.type = true then
        (fdPathLookup (pathsAfter history) e.pid (parseFdFromArgs e.args.1)).getD e.fname.1
      else e.fname.1 := by
  rw [handleEvent, if_neg (lt_irrefl _)] at h
  cases h
  have hopen : isFdBasedType e.type = true → ¬ (e.type = ioOpen ∨ e.type = ioOpenat) := by
    rintro hfd (h | h) <;> rw [h] at hfd <;> exact absurd hfd (by decide)
  split
  next honFd => simp only [if_neg (fun h => hopen honFd.2 (And.left h))]
  next => rfl

/-- After every history of events the list is the finite map of the open descriptors,
and the next event is printed with what it holds. -/
theorem tracksPaths (history : List IoEvent) (e : IoEvent) : TracksPaths history e where
  nodup := nodup_pathsAfter history
  lookup_iff := lookup_pathsAfter_iff history
  parsed _ := parseFdFromArgs_eq_iff
  printed row hrow fd name habout hopen := by
    obtain ⟨honFd, rfl⟩ := isAbout_iff.mp habout
    rw [row_path hrow, if_pos honFd, (lookup_pathsAfter_iff history _ _ name).mpr hopen]
    rfl
  own row hrow hnone := by
    rw [row_path hrow]
    split
    next honFd =>
        cases hlookup : fdPathLookup (pathsAfter history) e.pid (parseFdFromArgs e.args.1) with
        | none => rfl
        | some name =>
            have hopen := (lookup_pathsAfter_iff history _ _ name).mp hlookup
            exact absurd ⟨_, name, isAbout_iff.mpr ⟨honFd, rfl⟩, hopen⟩ hnone
    next => rfl
  close := by
    refine ⟨rfl, fun hclose pid fd => ?_⟩
    have hno : ¬ Opens e (pid, fd) := by
      rintro ⟨h | h, -⟩ <;> rw [h] at hclose <;> exact absurd hclose (by decide)
    rw [pathsAfter_concat, lookup_handleEvent (nodup_pathsAfter history), effect, if_neg hno]
    split <;> rfl

/-- Process 7 opens a file as descriptor 3. -/
def opened : IoEvent := ⟨0, 7, ioOpen, 3, ⟨[], by decide⟩, ⟨cstr "a.txt", by decide⟩, ⟨[], by decide⟩⟩

/-- It reads from there. -/
def readFrom : IoEvent :=
  ⟨0, 7, ioRead, 10, ⟨[], by decide⟩, ⟨cstr "read", by decide⟩, ⟨cstr "fd=3 size=10", by decide⟩⟩

theorem tracksPaths_readFrom :
    ∃ row ∈ (handleEvent (pathsAfter [opened]) sizeofIoEvent readFrom).row,
      row.path = cstr "a.txt" := by
  have habout : IsAbout readFrom 3 := by decide +kernel
  have hopen : OpenAs [opened] (readFrom.pid, 3) (cstr "a.txt") :=
    ⟨[], opened, [], rfl, by decide, rfl, by simp⟩
  exact ⟨_, rfl, (tracksPaths [opened] readFrom).printed _ rfl 3 _ habout hopen⟩

end MonitoringTools.FdPathTable
