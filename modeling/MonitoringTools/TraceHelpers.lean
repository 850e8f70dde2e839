import Mathlib.Data.Finset.Lattice.Fold
import Mathlib.Order.Lattice.Nat
import MonitoringTools.BpfMachine
import MonitoringTools.CStrings

/-!
# What the loaders find out about a kernel function

Both helpers walk from a function's name to its prototype, in the type information of the
kernel or of a module. One answers with the number of parameters; the other loads and
attaches a program that reads them all. Descriptors and parsed type information are
handles: a helper that closes one it does not have open has no run.
-/
namespace MonitoringTools.TraceHelpers
open BpfMachine CStrings

/-- The types that the helpers look at; the others count only for the numbering. -/
inductive BtfType where
  | func (name : CString) (proto : ℕ)
  | funcProto (vlen : ℕ)
  | other
  deriving DecidableEq, Repr

/-- The types from number one on. -/
abbrev Btf := List BtfType

structure BtfObject where
  opens : Bool
  /-- The name that `bpf_obj_get_info_by_fd` tells, if it succeeds. -/
  name : Option CString
  deriving DecidableEq, Repr

inductive Handle where
  | fd (n : ℕ)
  | btf (n : ℕ)
  deriving DecidableEq, Repr

abbrev Target := Option CString × ℕ

structure Kernel where
  /-- `btf__load_vmlinux_btf`, or its error. -/
  vmlinuxBtf : Except ℤ Btf
  btfObjects : List BtfObject
  /-- `btf__load_module_btf`: the types of the kernel and those of the module after them. -/
  moduleBtf : CString → Option Btf
  /-- Whether a tracing program loads for a function. -/
  loads : Target → List Insn → Bool
  /-- Whether a loaded program attaches. -/
  attaches : Target → Bool
  freshFd : Finset Handle → ℕ
  freshBtf : Finset Handle → ℕ

/-- New handles differ from the open ones, and the library hands out no standard
descriptor. -/
structure Kernel.Lawful (k : Kernel) : Prop where
  fd : ∀ s, Handle.fd (k.freshFd s) ∉ s
  btf : ∀ s, Handle.btf (k.freshBtf s) ∉ s
  positive : ∀ s, 0 < k.freshFd s

/-- `close` and `btf__free`. -/
def release (h : Handle) (s : Finset Handle) : Option (Finset Handle) :=
  if h ∈ s then some (s.erase h) else none

def einval : ℤ := 22
def enoent : ℤ := 2

structure ModuleBtf where
  fd : ℤ
  btf : Option (ℕ × Btf)

def getModuleBtf (k : Kernel) (mod : CString) :
    List BtfObject → Finset Handle → Option (ModuleBtf × Finset Handle)
  | [], s => some (⟨-1, none⟩, s)
  | object :: rest, s =>
      if object.opens then
        let fd := k.freshFd s
        let s := insert (.fd fd) s
        if object.name = some mod then
          match k.moduleBtf mod with
          | none => (release (.fd fd) s).map fun s => (⟨-1, none⟩, s)
          | some types =>
              let btf := k.freshBtf s
              some (⟨fd, some (btf, types)⟩, insert (.btf btf) s)
        else (release (.fd fd) s).bind fun s => getModuleBtf k mod rest s
      else getModuleBtf k mod rest s

/-- `btf__find_by_name_kind` for functions. -/
def findFunc (btf : Btf) (name : CString) : ℤ :=
  match btf.findIdx? fun
    | .func n _ => n = name
    | _ => false with
  | some i => i + 1
  | none => -enoent

/-- `btf__type_by_id`; number zero is `void`. -/
def typeById (btf : Btf) (id : ℕ) : Option BtfType := if id = 0 then some .other else btf[id - 1]?

/-- The number of parameters that the prototype of a function has. -/
def paramsOf (btf : Btf) (id : ℤ) : Option ℕ :=
  match typeById btf id.toNat with
  | some (.func _ proto) =>
      match typeById btf proto with
      | some (.funcProto vlen) => some vlen
      | _ => none
  | _ => none

/-- The instructions of the probe: read every argument, return zero. -/
def probeProgram (parameterCount : ℕ) : List Insn :=
  (List.range parameterCount).map (fun index => load 0 1 (Int16.ofNat (index * 8))) ++
    [⟨alu64MovK, 0, 0, 0, 0⟩, ⟨jmpExit, 0, 0, 0, 0⟩]

def fentryTryAttach (k : Kernel) (target : Target) (parameterCount : ℤ) (s : Finset Handle) :
    Option (Bool × Finset Handle) :=
  if parameterCount < 0 ∨ 12 < parameterCount then some (false, s)
  else if k.loads target (probeProgram parameterCount.toNat) then
    let progFd := k.freshFd s
    let s := insert (.fd progFd) s
    if k.attaches target then
      let attachFd := k.freshFd s
      (release (.fd attachFd) (insert (.fd attachFd) s)).bind fun s =>
        (release (.fd progFd) s).map fun s => (true, s)
    else (release (.fd progFd) s).map fun s => (false, s)
  else some (false, s)

/-- The label `cleanup`: close the descriptor if the helper says so, free both objects. -/
def cleanup (closes : Bool) (m : ModuleBtf) (vmlinuxBtf : ℕ) (s : Finset Handle) :
    Option (Finset Handle) :=
  (if closes then release (.fd m.fd.toNat) s else some s).bind fun s =>
    (match m.btf with
      | some btf => release (.btf btf.1) s
      | none => some s).bind fun s => release (.btf vmlinuxBtf) s

/-- The types to search: those of the module if one is named. -/
def searched (mod : Option CString) (vmlinux : Btf) (m : ModuleBtf) : Option Btf :=
  match mod with
  | none => some vmlinux
  | some _ => m.btf.map Prod.snd

/-- `get_module_btf` where a module is named; the descriptor starts at the given value. -/
def openModule (k : Kernel) (mod : Option CString) (btfFd : ℤ) (s : Finset Handle) :
    Option (ModuleBtf × Finset Handle) :=
  match mod with
  | none => some (⟨btfFd, none⟩, s)
  | some mod => getModuleBtf k mod k.btfObjects s

def fentryCanAttach (k : Kernel) (name : CString) (mod : Option CString) (s : Finset Handle) :
    Option (Bool × Finset Handle) :=
  match k.vmlinuxBtf with
  | .error _ => some (false, s)
  | .ok vmlinux =>
      let vmlinuxBtf := k.freshBtf s
      (openModule k mod 0 (insert (.btf vmlinuxBtf) s)).bind fun (m, s) =>
        (match searched mod vmlinux m with
          | none => some (false, s)
          | some btf =>
              let id := findFunc btf name
              if id ≤ 0 then some (false, s)
              else
                match paramsOf btf id with
                | none => some (false, s)
                | some parameterCount => fentryTryAttach k (mod, id.toNat) parameterCount s).bind
          fun (result, s) => (cleanup (0 < m.fd) m vmlinuxBtf s).map fun s => (result, s)

def getFuncParamCount (k : Kernel) (name : CString) (mod : Option CString) (s : Finset Handle) :
    Option (ℤ × Finset Handle) :=
  match k.vmlinuxBtf with
  | .error err => some (err, s)
  | .ok vmlinux =>
      let vmlinuxBtf := k.freshBtf s
      (openModule k mod (-1) (insert (.btf vmlinuxBtf) s)).bind fun (m, s) =>
        let err : ℤ :=
          match searched mod vmlinux m with
          | none => -einval
          | some btf =>
              let id := findFunc btf name
              if id ≤ 0 then if id < 0 then id else -enoent
              else
                match paramsOf btf id with
                | some vlen => vlen
                | none => -einval
        (cleanup (0 ≤ m.fd) m vmlinuxBtf s).map fun s => (err, s)

/-- The types in which the helpers search for a function. -/
def Kernel.typesOf (k : Kernel) (vmlinux : Btf) : Option CString → Option Btf
  | none => some vmlinux
  | some mod =>
      if ∃ object ∈ k.btfObjects, object.opens = true ∧ object.name = some mod then
        k.moduleBtf mod
      else none

/-- The number and the parameter count of a function, or why there are none. -/
def Kernel.prototype (k : Kernel) (name : CString) (mod : Option CString) : Except ℤ (ℕ × ℕ) :=
  match k.vmlinuxBtf with
  | .error err => .error err
  | .ok vmlinux =>
      match k.typesOf vmlinux mod with
      | none => .error (-einval)
      | some btf =>
          if findFunc btf name ≤ 0 then .error (-enoent)
          else
            match paramsOf btf (findFunc btf name) with
            | some vlen => .ok ((findFunc btf name).toNat, vlen)
            | none => .error (-einval)

/-- The kernel takes a program that reads all arguments of a function. -/
def Kernel.probes (k : Kernel) (target : Target) (parameterCount : ℕ) : Bool :=
  parameterCount ≤ 12 && k.loads target (probeProgram parameterCount) && k.attaches target

/-- The program has at most as many instructions as its array. -/
theorem length_probeProgram_le {parameterCount : ℕ} (h : parameterCount ≤ 12) :
    (probeProgram parameterCount).length ≤ 14 := by
  simp only [probeProgram, List.length_append, List.length_map, List.length_range,
    List.length_cons, List.length_nil]
  omega

/-- The program reads the slot of every argument, and nothing else. -/
theorem readsOf_probeProgram (parameterCount : ℕ) :
    readsOf (probeProgram parameterCount) =
      some ((List.range parameterCount).map fun index => Int16.ofNat (index * 8)) := by
  set offs := (List.range parameterCount).map fun index => Int16.ofNat (index * 8) with hoffs
  have hprogram : probeProgram parameterCount =
      offs.map (load 0 1) ++ [⟨alu64MovK, 0, 0, 0, 0⟩, ⟨jmpExit, 0, 0, 0, 0⟩] := by
    rw [hoffs, List.map_map]
    rfl
  obtain ⟨m, hrun, hreads, -⟩ := run_loads (fun _ => 0) Nat.one_ne_zero offs
    [⟨alu64MovK, 0, 0, 0, 0⟩, ⟨jmpExit, 0, 0, 0, 0⟩] (m := .start) rfl
  rw [readsOf, hprogram, hrun]
  simp [run, alu64MovK, jmpExit, ldxMemDw, hreads, Machine.start]

/-- A verifier that accepts a program has checked its reads. -/
def SoundVerifier (k : Kernel) (readable : Target → Int16 → Prop) : Prop :=
  ∀ target program reads, k.loads target program = true → readsOf program = some reads →
    ∀ off ∈ reads, readable target off

theorem SoundVerifier.readable {k : Kernel} {readable : Target → Int16 → Prop}
    (hv : SoundVerifier k readable) {target : Target} {parameterCount : ℕ}
    (h : k.probes target parameterCount = true) :
    ∀ index < parameterCount, readable target (Int16.ofNat (index * 8)) := by
  simp only [Kernel.probes, Bool.and_eq_true] at h
  intro index hindex
  apply hv target _ _ h.1.2 (readsOf_probeProgram parameterCount)
  exact List.mem_map.mpr ⟨index, List.mem_range.mpr hindex, rfl⟩

section Handles
variable {k : Kernel} {s : Finset Handle}

theorem release_insert {h : Handle} (hs : h ∉ s) : release h (insert h s) = some s := by
  rw [release, if_pos (Finset.mem_insert_self h s), Finset.erase_insert hs]

theorem fentryTryAttach_eq (hk : k.Lawful) (target : Target) (parameterCount : ℕ) :
    fentryTryAttach k target parameterCount s = some (k.probes target parameterCount, s) := by
  have hprog := hk.fd s
  have hattach := hk.fd (insert (.fd (k.freshFd s)) s)
  unfold fentryTryAttach
  split
  next hcount =>
      have hmany : ¬ parameterCount ≤ 12 := by omega
      simp [Kernel.probes, hmany]
  next hcount =>
      have hfew : parameterCount ≤ 12 := by omega
      simp only [Int.toNat_natCast, Kernel.probes, hfew, decide_true, Bool.true_and]
      cases k.loads target (probeProgram parameterCount) with
      | false => rfl
      | true =>
          cases k.attaches target with
          | false => simp [release_insert hprog]
          | true => simp [release_insert hprog, release_insert hattach]

/-- What `get_module_btf` finds, and the two handles it leaves open if it finds something. -/
theorem getModuleBtf_eq (hk : k.Lawful) (mod : CString) (objects : List BtfObject) :
    getModuleBtf k mod objects s =
      match (if ∃ object ∈ objects, object.opens = true ∧ object.name = some mod then
        k.moduleBtf mod else none) with
      | some types =>
          let opened := insert (.fd (k.freshFd s)) s
          some (⟨k.freshFd s, some (k.freshBtf opened, types)⟩,
            insert (.btf (k.freshBtf opened)) opened)
      | none => some (⟨-1, none⟩, s) := by
  induction objects with
  | nil => simp [getModuleBtf]
  | cons object rest ih =>
      have hfd := release_insert (hk.fd s)
      rw [getModuleBtf]
      cases hopens : object.opens with
      | false => simp [hopens, ih]
      | true =>
          by_cases hname : object.name = some mod
          · cases k.moduleBtf mod <;> simp [hopens, hname, hfd]
          · simp [hopens, hname, hfd, ih]

/-- What a helper holds while it searches, and that its cleanup gives all of it back. -/
structure Holding (k : Kernel) (vmlinux : Btf) (mod : Option CString) (btfFd : ℤ)
    (s : Finset Handle) (m : ModuleBtf) (held : Finset Handle) : Prop where
  searched_eq : searched mod vmlinux m = k.typesOf vmlinux mod
  without : m.btf = none → m.fd = btfFd ∨ m.fd = -1
  positive : m.btf.isSome = true → 0 < m.fd
  restores : cleanup m.btf.isSome m (k.freshBtf s) held = some s

theorem openModule_holding (hk : k.Lawful) (vmlinux : Btf) (mod : Option CString) (btfFd : ℤ) :
    ∃ m held, openModule k mod btfFd (insert (.btf (k.freshBtf s)) s) = some (m, held) ∧
      Holding k vmlinux mod btfFd s m held := by
  have hvmlinux := release_insert (hk.btf s)
  set opened := insert (Handle.btf (k.freshBtf s)) s
  have hnone : ∀ fd, cleanup false ⟨fd, none⟩ (k.freshBtf s) opened = some s := fun _ => hvmlinux
  cases mod with
  | none =>
      exact ⟨⟨btfFd, none⟩, opened, rfl, rfl, fun _ => .inl rfl, nofun, hnone _⟩
  | some name =>
      rw [openModule, getModuleBtf_eq hk]
      cases htypes : (if ∃ object ∈ k.btfObjects, object.opens = true ∧ object.name = some name then
        k.moduleBtf name else none) with
      | none =>
          exact ⟨⟨-1, none⟩, opened, rfl, htypes.symm, fun _ => .inr rfl, nofun,
            hnone _⟩
      | some types =>
          refine ⟨_, _, rfl, htypes.symm, nofun, fun _ => ?_, ?_⟩
          · exact Int.natCast_pos.mpr (hk.positive opened)
          · have hfd := hk.fd opened
            have hbtf := hk.btf (insert (.fd (k.freshFd opened)) opened)
            -- the descriptor is closed while the types of the module are still open
            rw [Finset.insert_comm (.btf (k.freshBtf (insert (.fd (k.freshFd opened)) opened)))
              (.fd (k.freshFd opened)) opened]
            have hfd' : Handle.fd (k.freshFd opened) ∉
                insert (Handle.btf (k.freshBtf (insert (.fd (k.freshFd opened)) opened)))
                  opened := by
              simpa using hfd
            have hbtf' : Handle.btf (k.freshBtf (insert (.fd (k.freshFd opened)) opened)) ∉
                opened := fun h => hbtf (Finset.mem_insert_of_mem h)
            simp only [cleanup, Option.isSome_some, if_true, Int.toNat_natCast,
              release_insert hfd', Option.bind_some, release_insert hbtf']
            exact hvmlinux

/-- Both helpers answer from the same prototype, whatever handles are open before, and leave
just those open. -/
theorem helpers_eq (hk : k.Lawful) (name : CString) (mod : Option CString) (s : Finset Handle) :
    getFuncParamCount k name mod s = some (match k.prototype name mod with
        | .ok p => (p.2 : ℤ)
        | .error err => err, s) ∧
      fentryCanAttach k name mod s = some (match k.prototype name mod with
        | .ok p => k.probes (mod, p.1) p.2
        | .error _ => false, s) := by
  unfold getFuncParamCount fentryCanAttach Kernel.prototype
  cases k.vmlinuxBtf with
  | error err => exact ⟨rfl, rfl⟩
  | ok vmlinux =>
      obtain ⟨m, held, hopen, hholding⟩ := @openModule_holding k s hk vmlinux mod (-1)
      obtain ⟨m', held', hopen', hholding'⟩ := @openModule_holding k s hk vmlinux mod 0
      have hcloses : decide (0 ≤ m.fd) = m.btf.isSome := by
        cases hm : m.btf with
        | none =>
            have hfd : m.fd = -1 := (hholding.without hm).elim id id
            rw [hfd]
            rfl
        | some btf =>
            have hfd := hholding.positive (by rw [hm]; rfl)
            simpa using hfd.le
      have hcloses' : decide (0 < m'.fd) = m'.btf.isSome := by
        cases hm : m'.btf with
        | none =>
            have hfd : m'.fd = 0 ∨ m'.fd = -1 := hholding'.without hm
            rcases hfd with hfd | hfd <;> rw [hfd] <;> rfl
        | some btf =>
            have hfd := hholding'.positive (by rw [hm]; rfl)
            simpa using hfd
      simp only [hopen, hopen', Option.bind_some, hcloses, hcloses', hholding.searched_eq,
        hholding'.searched_eq, hholding.restores, Option.map_some]
      cases k.typesOf vmlinux mod with
      | none => exact ⟨rfl, by simp only [Option.bind_some, hholding'.restores, Option.map_some]⟩
      | some btf =>
          dsimp only
          have herr : ¬ findFunc btf name ≤ 0 ∨ findFunc btf name = -enoent := by
            unfold findFunc
            split
            · exact .inl (by omega)
            · exact .inr rfl
          by_cases hid : findFunc btf name ≤ 0
          · have hmissing := herr.resolve_left (not_not.mpr hid)
            simp only [if_pos hid]
            refine ⟨by rw [hmissing]; rfl, ?_⟩
            simp only [Option.bind_some, hholding'.restores, Option.map_some]
          · simp only [if_neg hid]
            cases paramsOf btf (findFunc btf name) with
            | none =>
                exact ⟨rfl, by simp only [Option.bind_some, hholding'.restores, Option.map_some]⟩
            | some vlen =>
                refine ⟨rfl, ?_⟩
                simp only [fentryTryAttach_eq hk, Option.bind_some, hholding'.restores,
                  Option.map_some]

end Handles

def Handle.number : Handle → ℕ
  | .fd n => n
  | .btf n => n

/-- A number above every open handle, and no standard descriptor. -/
def unused (s : Finset Handle) : ℕ := s.sup Handle.number + 3

theorem number_lt_unused {h : Handle} {s : Finset Handle} (hs : h ∈ s) : h.number < unused s :=
  Nat.lt_add_right 2 (Nat.lt_succ_of_le (Finset.le_sup hs))

/-- A verifier that lets programs read the arguments which the types tell. -/
def checks (types : Btf) (target : Target) (program : List Insn) : Bool :=
  match readsOf program with
  | none => false
  | some reads => reads.all fun off =>
      off ∈ (List.range ((paramsOf types target.2).getD 0)).map fun index => Int16.ofNat (index * 8)

def argumentSlot (types : Btf) (target : Target) (off : Int16) : Prop :=
  ∃ index < (paramsOf types target.2).getD 0, off = Int16.ofNat (index * 8)

theorem soundVerifier_checks {k : Kernel} {types : Btf} (h : k.loads = checks types) :
    SoundVerifier k (argumentSlot types) := by
  intro target program reads hload hreads off hoff
  rw [h, checks, hreads, List.all_eq_true] at hload
  obtain ⟨index, hindex, rfl⟩ := List.mem_map.mp (of_decide_eq_true (hload off hoff))
  exact ⟨index, List.mem_range.mp hindex, rfl⟩

/-- A kernel, and a client module whose release function takes the server and the request. -/
def cifsTypes : Btf :=
  [.other, .funcProto 2, .func (cstr "vfs_open") 2, .func (cstr "smb2_mid_entry_alloc") 2,
    .func (cstr "__release_mid") 2]

def cifsKernel : Kernel where
  vmlinuxBtf := .ok (cifsTypes.take 3)
  btfObjects := [⟨true, some (cstr "vmlinux")⟩, ⟨false, none⟩, ⟨true, some (cstr "cifs")⟩]
  moduleBtf := fun mod => if mod = cstr "cifs" then some cifsTypes else none
  loads := checks cifsTypes
  attaches := fun _ => true
  freshFd := unused
  freshBtf := unused

theorem cifsKernel_lawful : cifsKernel.Lawful where
  fd _ h := lt_irrefl _ (number_lt_unused h)
  btf _ h := lt_irrefl _ (number_lt_unused h)
  positive _ := Nat.succ_pos _

theorem helpers_eq_cifs :
    cifsKernel.prototype (cstr "__release_mid") (some (cstr "cifs")) = .ok (5, 2) ∧
      getFuncParamCount cifsKernel (cstr "__release_mid") (some (cstr "cifs")) ∅ = some (2, ∅) ∧
      fentryCanAttach cifsKernel (cstr "__release_mid") (some (cstr "cifs")) ∅ =
        some (true, ∅) := by
  have hprototype : cifsKernel.prototype (cstr "__release_mid") (some (cstr "cifs")) =
      .ok (5, 2) := rfl
  have hprobes : cifsKernel.probes (some (cstr "cifs"), 5) 2 = true := by decide +kernel
  have h := helpers_eq cifsKernel_lawful (cstr "__release_mid") (some (cstr "cifs")) ∅
  rw [hprototype] at h
  simp only [hprobes] at h
  exact ⟨hprototype, h⟩

end MonitoringTools.TraceHelpers
