import MonitoringTools.HookSelection
import MonitoringTools.SmbslowerSelection
import MonitoringTools.TraceHelpers

/-!
# What the tracing programs may read

A program on the entry of a function finds its arguments in the slots of its context, and
one on the return the result in the slot after them. The loaders leave a tracing program
on only if the kernel accepted the probe of its function, so all slots of the arguments
can be read; where they also compare the number of parameters, the result is the result.
-/
namespace MonitoringTools.FentryContexts
open CStrings HookSelection TraceHelpers

/-- The arguments that the tracing programs of iosnoop and ioslower declare. -/
def programArguments : List (CString × List String) :=
  [(cstr "trace_vfs_open_enter", ["path", "file"]),
    (cstr "trace_vfs_open_exit", ["path", "file", "ret"]),
    (cstr "trace_vfs_read_enter", ["file", "buf", "count", "pos"]),
    (cstr "trace_vfs_read_exit", ["file", "buf", "count", "pos", "ret"]),
    (cstr "trace_vfs_write_enter", ["file", "buf", "count", "pos"]),
    (cstr "trace_vfs_write_exit", ["file", "buf", "count", "pos", "ret"]),
    (cstr "trace_vfs_create_enter", ["idmap", "dir", "dentry", "mode", "want_excl"]),
    (cstr "trace_vfs_create_exit", ["idmap", "dir", "dentry", "mode", "want_excl", "ret"]),
    (cstr "trace_vfs_mkdir_enter", ["idmap", "dir", "dentry", "mode"]),
    (cstr "trace_vfs_mkdir_exit", ["idmap", "dir", "dentry", "mode", "ret"]),
    (cstr "trace_vfs_rmdir_enter", ["idmap", "dir", "dentry"]),
    (cstr "trace_vfs_rmdir_exit", ["idmap", "dir", "dentry", "ret"]),
    (cstr "trace_vfs_symlink_enter", ["idmap", "dir", "dentry", "oldname"]),
    (cstr "trace_vfs_symlink_exit", ["idmap", "dir", "dentry", "oldname", "ret"]),
    (cstr "trace_vfs_rename_enter", ["rd"]),
    (cstr "trace_vfs_rename_exit", ["rd", "ret"]),
    (cstr "trace_vfs_getattr_enter", ["path", "stat", "request_mask", "query_flags"]),
    (cstr "trace_vfs_getattr_exit", ["path", "stat", "request_mask", "query_flags", "ret"]),
    (cstr "trace_vfs_truncate_enter", ["path", "length"]),
    (cstr "trace_vfs_truncate_exit", ["path", "length", "ret"]),
    (cstr "trace_vfs_fchmod_enter", ["file", "mode"]),
    (cstr "trace_vfs_fchmod_exit", ["file", "mode", "ret"]),
    (cstr "trace_vfs_readlink_enter", ["dentry", "buffer", "buflen"]),
    (cstr "trace_vfs_readlink_exit", ["dentry", "buffer", "buflen", "ret"]),
    (cstr "trace_vfs_readv_enter", ["file", "vec", "vlen", "pos", "flags"]),
    (cstr "trace_vfs_readv_exit", ["file", "vec", "vlen", "pos", "flags", "ret"]),
    (cstr "trace_vfs_writev_enter", ["file", "vec", "vlen", "pos", "flags"]),
    (cstr "trace_vfs_writev_exit", ["file", "vec", "vlen", "pos", "flags", "ret"]),
    (cstr "trace_iterate_dir_enter", ["file", "dctx"]),
    (cstr "trace_iterate_dir_exit", ["file", "dctx", "ret"]),
    (cstr "trace_vfs_lock_file_enter", ["filp", "cmd", "fl", "conf"]),
    (cstr "trace_vfs_lock_file_exit", ["filp", "cmd", "fl", "conf", "ret"])]

def argumentsOf (p : BpfProgram) : Option (List String) :=
  (programArguments.find? fun row => row.1 = p.name).map Prod.snd

section Answers
variable (k : TraceHelpers.Kernel) (mod : Option CString) (s : Finset Handle)

/-- What `fentry_can_attach` answers about the functions of a module. -/
def canAttach (f : CString) : Bool := ((fentryCanAttach k f mod s).map Prod.fst).getD false

/-- What `get_func_param_count` answers. -/
def paramCount (f : CString) : ℤ := ((getFuncParamCount k f mod s).map Prod.fst).getD 0

/-- The kernel, as the loaders of iosnoop and ioslower see it through the helpers. -/
def asked (functionExists : CString → Bool) : HookSelection.Kernel :=
  ⟨canAttach k none s, paramCount k none s, functionExists⟩

end Answers

section Vouched
variable {k : TraceHelpers.Kernel} {mod : Option CString} {s : Finset Handle}

theorem canAttach_iff (hk : k.Lawful) (f : CString) : canAttach k mod s f = true ↔
    ∃ id n, k.prototype f mod = .ok (id, n) ∧ k.probes (mod, id) n = true := by
  rw [canAttach, (helpers_eq hk f mod s).2]
  cases k.prototype f mod with
  | error err => simp
  | ok p =>
      obtain ⟨id, n⟩ := p
      simp

theorem paramCount_eq (hk : k.Lawful) {f : CString} {id n : ℕ}
    (h : k.prototype f mod = .ok (id, n)) : paramCount k mod s f = n := by
  rw [paramCount, (helpers_eq hk f mod s).1, h]
  rfl

/-- The kernel lets tracing programs read all arguments of a function. -/
def Vouched (k : TraceHelpers.Kernel) (readable : Target → Int16 → Prop) (mod : Option CString)
    (f : CString) (parameterCount : ℕ) : Prop :=
  ∃ id, k.prototype f mod = .ok (id, parameterCount) ∧
    ∀ index < parameterCount, readable (mod, id) (Int16.ofNat (index * 8))

theorem vouched_of_canAttach (hk : k.Lawful) {readable : Target → Int16 → Prop}
    (hv : SoundVerifier k readable) {f : CString} (h : canAttach k mod s f = true) :
    ∃ n : ℕ, Vouched k readable mod f n ∧ paramCount k mod s f = n := by
  obtain ⟨id, n, hprototype, hprobes⟩ := (canAttach_iff hk f).mp h
  exact ⟨n, ⟨id, hprototype, hv.readable hprobes⟩, paramCount_eq hk hprototype⟩

end Vouched

section Vfs
variable {k : TraceHelpers.Kernel} {s : Finset Handle}

/-- The arguments of a program are the parameters of its function, and on the return the
result after them. -/
def takes (p : BpfProgram) (parameterCount : ℕ) : Bool :=
  match argumentsOf p with
  | none => false
  | some arguments =>
      if p.isReturn then
        arguments.length == parameterCount + 1 && arguments[parameterCount]? == some "ret"
      else arguments.length == parameterCount

theorem vfsPrograms_take {p : BpfProgram} (hp : p ∈ vfsPrograms) (hfentry : p.isFentry = true) :
    ∃ hook ∈ vfsHooks, p.target = some hook.1 ∧ takes p hook.2.toNat = true := by
  have hall : (vfsPrograms.all fun p => !p.isFentry ||
      vfsHooks.any fun hook => p.target == some hook.1 && takes p hook.2.toNat) = true := by
    decide +kernel
  have h := List.all_eq_true.mp hall p hp
  rw [hfentry, Bool.not_true, Bool.false_or, List.any_eq_true] at h
  simpa using h

/-- A tracing program of iosnoop or ioslower that is left on is for a function of the kernel
that has the arguments it takes, and the verifier lets it read them. -/
theorem vfs_vouched (hk : k.Lawful) {readable : Target → Int16 → Prop}
    (hv : SoundVerifier k readable) (functionExists : CString → Bool) {p : BpfProgram}
    (hp : p ∈ iosnoopLeft (asked k s functionExists) ∨
      p ∈ ioslowerLeft (asked k s functionExists))
    (hfentry : p.isFentry = true) :
    ∃ f n, p.target = some f ∧ takes p n = true ∧ Vouched k readable none f n := by
  rw [iosnoopLeft_eq, or_self] at hp
  obtain ⟨hmem, henabled⟩ := List.mem_filter.mp hp
  obtain ⟨hook, hhook, htarget, htakes⟩ := vfsPrograms_take hmem hfentry
  have hfamily : (asked k s functionExists).vfsFentryFamilySupported = true := by
    simpa only [ioslowerEnabled, hfentry, if_true] using henabled
  have hanswers := List.all_eq_true.mp hfamily hook hhook
  rw [Bool.and_eq_true, beq_iff_eq] at hanswers
  obtain ⟨n, hvouched, hcount⟩ := vouched_of_canAttach hk hv hanswers.1
  have hn : hook.2.toNat = n := by
    rw [← hanswers.2]
    exact congrArg Int.toNat hcount
  exact ⟨hook.1, n, htarget, hn ▸ htakes, hvouched⟩

/-- A kernel with all the hooks, after the prototypes of up to five parameters. -/
def vfsTypes : Btf :=
  (List.range 6).map .funcProto ++ vfsHooks.map fun hook => .func hook.1 (hook.2.toNat + 1)

def vfsKernel : TraceHelpers.Kernel where
  vmlinuxBtf := .ok vfsTypes
  btfObjects := []
  moduleBtf := fun _ => none
  loads := checks vfsTypes
  attaches := fun _ => true
  freshFd := unused
  freshBtf := unused

theorem vfsKernel_lawful : vfsKernel.Lawful where
  fd _ h := lt_irrefl _ (number_lt_unused h)
  btf _ h := lt_irrefl _ (number_lt_unused h)
  positive _ := Nat.succ_pos _

def createExit : BpfProgram := ⟨cstr "trace_vfs_create_exit", cstr "fexit/vfs_create"⟩

theorem vfs_vouched_create :
    ∃ f n, createExit.target = some f ∧ takes createExit n = true ∧
      Vouched vfsKernel (argumentSlot vfsTypes) none f n :=
  vfs_vouched (s := ∅) vfsKernel_lawful (soundVerifier_checks rfl) (fun _ => true)
    (.inl (by decide +kernel)) (by decide +kernel)

end Vfs

section Cifs
open SmbslowerSelection
variable {k : TraceHelpers.Kernel} {s : Finset Handle}

/-- `main` of smbslower asks the helpers about the client module. -/
def answered (env : Environment) (k : TraceHelpers.Kernel) (s : Finset Handle) : Environment :=
  {env with
    fentryCanAttach := canAttach k (some (cstr "cifs")) s
    getFuncParamCount := paramCount k (some (cstr "cifs")) s}

def isTracing (p : Program) : Bool :=
  strncmpEq (sectionName p) (cstr "fentry/") 7 || strncmpEq (sectionName p) (cstr "fexit/") 6

/-- The arguments that the tracing programs of smbslower declare. -/
def tracingArguments : Program → List String
  | .midAllocFexit => ["shdr", "server", "mid_struct"]
  | .midReleaseKrefFentry => ["refcount"]
  | .midReleaseLegacyFentry => ["refcount"]
  | .midReleaseSingleDirectFentry => ["midEntry"]
  | .midReleaseDirectFentry => ["server", "midEntry"]
  | _ => []

theorem allocProgram_tracing {env : Environment} {noModuleBtf errata : Bool}
    (h : isTracing (allocProgram env noModuleBtf errata) = true) :
    allocProgram env noModuleBtf errata = .midAllocFexit ∧
      env.fentryCanAttach (cstr "smb2_mid_entry_alloc") = true := by
  unfold allocProgram at h ⊢
  split_ifs at h ⊢ with hbtf herrata hfentry
  · exact absurd h (by decide +kernel)
  · exact absurd h (by decide +kernel)
  · exact ⟨rfl, hfentry⟩
  · exact absurd h (by decide +kernel)

theorem releaseProgram_tracing {env : Environment} {noModuleBtf errata : Bool}
    {r : ReleaseLookup} (h : isTracing (releaseProgram env noModuleBtf errata r) = true) :
    noModuleBtf = false ∧ env.fentryCanAttach r.releaseFunc = true := by
  have hkprobe : ∀ p ∈ [Program.midReleaseRhel810553134Kprobe, .midReleaseRhel810Kprobe,
      .midReleaseSingleDirectKprobe, .midReleaseLegacyKprobe, .midReleaseDirectKprobe,
      .midReleaseKrefKprobe], isTracing p = false := by
    decide +kernel
  cases hbtf : noModuleBtf with
  | true =>
      simp only [releaseProgram, hbtf, if_true] at h
      split_ifs at h <;> rw [hkprobe _ (by decide)] at h <;> cases h
  | false =>
      refine ⟨rfl, ?_⟩
      cases hattach : env.fentryCanAttach r.releaseFunc with
      | true => rfl
      | false =>
          simp only [releaseProgram, hbtf, hattach, Bool.and_false, Bool.false_eq_true,
            if_false] at h
          split_ifs at h <;> rw [hkprobe _ (by decide)] at h <;> cases h

theorem releaseProgram_arguments (env : Environment) (errata : Bool) :
    ∀ r ∈ matchedLookups, isTracing (releaseProgram env false errata r) = true →
      ((tracingArguments (releaseProgram env false errata r)).length : ℤ) =
        r.releaseMidParams := by
  simp only [matchedLookups, List.forall_mem_cons, releaseProgram, Bool.false_eq_true, if_false]
  refine ⟨?_, ?_, ?_, ?_, by simp⟩ <;> cases _ && _ <;> decide +kernel

theorem not_tracing_tracepoints {p : Program} (hp : p ∈ tracepointPrograms) :
    isTracing p = false := by
  revert p
  decide +kernel

/-- A tracing program that smbslower loads is for a function of the client module whose
arguments the verifier lets it read; on a release function it takes just those. -/
theorem cifs_vouched (hk : k.Lawful) {readable : Target → Int16 → Prop}
    (hv : SoundVerifier k readable) (env : Environment) {selection : Selection}
    (hselect : select (answered env k s) = .ok selection)
    (hpair : ¬ MisattachedPair (answered env k s)) {p : Program}
    (hload : selection.switches.autoload p = true) (htracing : isTracing p = true) :
    ∃ f n, target p = some f ∧ Vouched k readable (some (cstr "cifs")) f n ∧
      (p ∈ releasePrograms → (tracingArguments p).length = n) := by
  cases htracepoints : (answered env k s).useTracepoints with
  | true =>
      obtain ⟨-, -, honly | ⟨alloc, release, r, hprobes⟩⟩ :=
        select_tracepoints hselect htracepoints
      · rw [not_tracing_tracepoints ((honly p).mp hload)] at htracing
        cases htracing
      · simp only [select, htracepoints, if_true, Except.ok.injEq] at hselect
        subst hselect
        cases hprobes.looked_up
  | false =>
      obtain ⟨noModuleBtf, errata, hlayout, hsupported, -, -, hloads⟩ :=
        select_loads hselect htracepoints
      obtain rfl | rfl := (hloads p).mp hload
      · obtain ⟨hprogram, hattach⟩ := allocProgram_tracing htracing
        obtain ⟨n, hvouched, -⟩ := vouched_of_canAttach hk hv hattach
        exact ⟨_, n, target_allocProgram _ _ _, hvouched,
          fun h => absurd h (allocProgram_notMem _ _ _)⟩
      · obtain ⟨rfl, hattach⟩ := releaseProgram_tracing htracing
        have hmatched := lookupRelease_matched hpair hsupported
        obtain ⟨n, hvouched, hcount⟩ := vouched_of_canAttach hk hv hattach
        refine ⟨_, n, (releaseProgram_fits _ errata _ hmatched).1, hvouched, fun _ => ?_⟩
        have hparams := lookupRelease_counted (answered env k s) errata
        have harguments := releaseProgram_arguments _ errata _ hmatched htracing
        rw [hparams, show (answered env k s).getFuncParamCount _ = (n : ℤ) from hcount]
          at harguments
        exact_mod_cast harguments

theorem cifs_vouched_direct :
    ∃ selection, select (answered serverReleaseMid cifsKernel ∅) = .ok selection ∧
      selection.switches.autoload .midReleaseDirectFentry = true ∧
      ∃ f n, target .midReleaseDirectFentry = some f ∧
        Vouched cifsKernel (argumentSlot cifsTypes) (some (cstr "cifs")) f n ∧
        (.midReleaseDirectFentry ∈ releasePrograms →
          (tracingArguments .midReleaseDirectFentry).length = n) := by
  obtain ⟨selection, hselect, hload⟩ : ∃ selection,
      select (answered serverReleaseMid cifsKernel ∅) = .ok selection ∧
        selection.switches.autoload .midReleaseDirectFentry = true := ⟨_, rfl, by decide +kernel⟩
  have hpair : ¬ MisattachedPair (answered serverReleaseMid cifsKernel ∅) :=
    fun h => absurd h.1 (by decide +kernel)
  exact ⟨selection, hselect, hload, cifs_vouched cifsKernel_lawful (soundVerifier_checks rfl)
    serverReleaseMid hselect hpair hload (by decide +kernel)⟩

end Cifs

end MonitoringTools.FentryContexts
