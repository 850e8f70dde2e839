import MonitoringTools.IoslowerProbes
import MonitoringTools.IosnoopProbes

/-!
# What the two filesystem tracers say about the same calls

Side by side on one kernel, without a mount filter, both tools see every call. As long as
no thread has a traced call inside another, iosnoop reports every call that names something
once, at its return, and ioslower those of them that take as long as its threshold.
-/
namespace MonitoringTools.ToolAgreement
open BpfHelpers FilesystemProbes

/-- One probe hit as each tool sees it, by its own clock and with its own maps. -/
structure Seen (c c' : ProbeContext) : Prop where
  pidTgid : c.pidTgid = c'.pidTgid
  uidGid : c.uidGid = c'.uidGid
  comm : c.comm = c'.comm

inductive Same : Firing → Firing → Prop
  | enter {c c' : ProbeContext} (seen : Seen c c') (call : Call) :
      Same (.enter c call) (.enter c' call)
  | leave {c c' : ProbeContext} (seen : Seen c c') (hook : Hook) (ret : UInt64) :
      Same (.leave c hook ret) (.leave c' hook ret)

/-- The calls that are open, one for each thread at most. -/
abbrev Pending := UInt64 → Option (ProbeContext × Call)

structure Completion where
  entry : ProbeContext
  call : Call
  exit : ProbeContext
  ret : UInt64

/-- The calls that a run completes, unless a thread has one inside another. A return may
belong to a call from before the tools were attached. -/
def complete (pending : Pending) : List Firing → Option (List Completion)
  | [] => some []
  | .enter c call :: rest =>
      match pending c.pidTgid with
      | some _ => none
      | none => complete (Function.update pending c.pidTgid (some (c, call))) rest
  | .leave c hook ret :: rest =>
      match pending c.pidTgid with
      | none => complete pending rest
      | some (entry, call) =>
          if call.hook = hook then
            (complete (Function.update pending c.pidTgid none) rest).map
              (⟨entry, call, c, ret⟩ :: ·)
          else none

structure Report where
  pid : UInt32
  uid : UInt32
  gid : UInt32
  type : UInt8
  ret : Int32
  comm : Buffer 16
  fname : Buffer 256
  deriving DecidableEq, Repr

def snoopReport (e : IosnoopProbes.Event) : Report :=
  ⟨e.pid, e.uid, e.gid, e.type, e.ret, e.comm, e.fname⟩

def slowReport (e : IoslowerProbes.Event) : Report :=
  ⟨e.pid, e.uid, e.gid, e.type, e.ret, e.comm, e.fname⟩

def tell (op : IosnoopProbes.OpCtx) : UInt8 × Buffer 96 := (op.type, op.fname)

def tellStart (st : IoslowerProbes.Start) : (UInt8 × Buffer 96) × UInt64 :=
  ((st.type, st.fname), st.ts)

/-- The name of what a call is about; some calls with a null argument have none. -/
def nameOf : Call → Option (Buffer 96)
  | .vfsOpen path _ => some (readPathName path 96)
  | .vfsGetattr path _ _ | .vfsTruncate path _ =>
      path.map fun path => readPathName (some path) 96
  | .vfsRead file _ _ | .vfsWrite file _ _ | .vfsReadv file _ _ | .vfsWritev file _ _
  | .vfsFchmod file _ | .vfsFallocate file _ _ | .iterateDir file | .vfsLockFile file _ =>
      some (readFileName file 96)
  | .doMmap file _ _ => file.map fun file => readFileName (some file) 96
  | .vfsCreate _ dentry _ _ | .vfsMkdir _ dentry _ | .vfsRmdir _ dentry
  | .vfsSymlink _ dentry _ | .vfsUnlink _ dentry | .vfsReadlink dentry _
  | .vfsLink _ _ dentry | .vfsRenameLegacy _ dentry => some (readDentryName dentry 96)
  | .vfsRename rd => rd.map fun rd => readDentryName rd.newDentry 96
  | .vmMunmap _ _ => some (Buffer.zero 96)

def told (call : Call) : Option (UInt8 × Buffer 96) :=
  (nameOf call).map (IosnoopProbes.exitType call.hook, ·)

def reportOf (c : ProbeContext) (ret : Int32) (what : UInt8 × Buffer 96) : Report where
  pid := c.pid
  uid := (c.uidGid &&& 0xffffffff).toUInt32
  gid := (c.uidGid >>> 32).toUInt32
  type := what.1
  ret := ret
  comm := c.comm
  fname := what.2.widen 160

def Completion.report (k : Completion) : Option Report :=
  (told k.call).map (reportOf k.exit (k.call.hook.reportedRet k.ret))

/-- Microseconds from the entry to the return. -/
def Completion.micros (k : Completion) : UInt64 := (k.exit.ktime - k.entry.ktime) / 1000

theorem told_snoop (m : IosnoopProbes.Maps) (c : ProbeContext) (call : Call) :
    (IosnoopProbes.entryCtx m c call).map tell = told call := by
  cases call
  case vfsRename rd => cases rd <;> rfl
  case vfsGetattr path _ _ => cases path <;> rfl
  case vfsTruncate path _ => cases path <;> rfl
  case doMmap file _ _ => cases file <;> rfl
  all_goals rfl

/-- The entries of both tools agree on the calls that they record, and on their names. -/
theorem told_slow (n : IoslowerProbes.Maps) (c : ProbeContext) (call : Call) :
    (IoslowerProbes.entryStart n c call).map tellStart = (told call).map (·, c.ktime) := by
  cases call
  case vfsRename rd => cases rd <;> rfl
  case vfsGetattr path _ _ => cases path <;> rfl
  case vfsTruncate path _ => cases path <;> rfl
  case doMmap file _ _ => cases file <;> rfl
  all_goals rfl

section
variable {m : IosnoopProbes.Maps} {n : IoslowerProbes.Maps} {c c' : ProbeContext}

theorem storedCtx_unfiltered (h : m.mountFilterCfg.enabled = 0) (call : Call) :
    IosnoopProbes.storedCtx m c call = IosnoopProbes.entryCtx m c call := by
  have hpass : ∀ dev, IosnoopProbes.passMountFilter m.mountFilterCfg dev = true := fun dev =>
    if_pos h
  cases hentry : IosnoopProbes.entryCtx m c call <;>
    simp [IosnoopProbes.storedCtx, hentry, Option.filter, hpass]

theorem storedStart_unfiltered (h : n.mountFilterCfg.enabled = 0) (call : Call) :
    IoslowerProbes.storedStart n c call = IoslowerProbes.entryStart n c call := by
  have hpass : ∀ dev, IoslowerProbes.passMountFilter n.mountFilterCfg dev = true := fun dev =>
    if_pos h
  cases hentry : IoslowerProbes.entryStart n c call <;>
    simp [IoslowerProbes.storedStart, hentry, Option.filter, hpass]

/-- The key of a thread and a function in the table of iosnoop. -/
def key (t : UInt64) (hook : Hook) : IosnoopProbes.OpKey :=
  IosnoopProbes.opKey t (IosnoopProbes.exitType hook)

theorem key_inj {t t' : UInt64} {hook hook' : Hook} :
    key t hook = key t' hook' ↔ t = t' ∧ hook = hook' := IosnoopProbes.opKey_exitType_inj

theorem enter_snoop (hcfg : m.mountFilterCfg.enabled = 0) (hroom : c.Roomy) {call : Call}
    (hfree : m.opState.lookup (key c.pidTgid call.hook) = none) (k : IosnoopProbes.OpKey) :
    (IosnoopProbes.enter m c call).opState.lookup k =
      if k = key c.pidTgid call.hook then IosnoopProbes.entryCtx m c call
      else m.opState.lookup k := by
  rw [IosnoopProbes.enter_spec, storedCtx_unfiltered hcfg]
  cases IosnoopProbes.entryCtx m c call with
  | none =>
      show m.opState.lookup k = _
      split_ifs with hk
      · rw [hk, hfree]
      · rfl
  | some op =>
      simp only [hroom.1, HashMap.update_true, HashMap.lookup_insert_eq]
      rfl

theorem enter_slow (hcfg : n.mountFilterCfg.enabled = 0) (hroom : c.Roomy) {call : Call}
    (hfree : n.opStart.lookup c.pidTgid = none) (t : UInt64) :
    (IoslowerProbes.enter n c call).opStart.lookup t =
      if t = c.pidTgid then IoslowerProbes.entryStart n c call else n.opStart.lookup t := by
  rw [IoslowerProbes.enter_spec, storedStart_unfiltered hcfg]
  cases IoslowerProbes.entryStart n c call with
  | none =>
      show n.opStart.lookup t = _
      split_ifs with ht
      · rw [ht, hfree]
      · rfl
  | some st => simp only [hroom.1, HashMap.update_true, HashMap.lookup_insert_eq]

theorem snoop_exit (hroom : c.Roomy) (hook : Hook) (ret : UInt64) :
    (IosnoopProbes.leave m c hook ret).events.map snoopReport = m.events.map snoopReport ++
      (((m.opState.lookup (key c.pidTgid hook)).map tell).map
        (reportOf c (hook.reportedRet ret))).toList := by
  rw [IosnoopProbes.leave_spec, List.map_append, IosnoopProbes.exitEvents, ← key]
  cases m.opState.lookup (key c.pidTgid hook) with
  | none => rfl
  | some op =>
      simp only [hroom.2, if_true]
      rfl

theorem slow_exit (hroom : c.Roomy) (hook : Hook) (ret : UInt64) :
    (IoslowerProbes.leave n c hook ret).events.map slowReport = n.events.map slowReport ++
      ((((n.opStart.lookup c.pidTgid).map tellStart).filter
        fun x => n.thresholdConfig ≤ (c.ktime - x.2) / 1000).map
          fun x => reportOf c (hook.reportedRet ret) x.1).toList := by
  rw [IoslowerProbes.leave_spec, List.map_append, IoslowerProbes.exitEvents]
  cases n.opStart.lookup c.pidTgid with
  | none => rfl
  | some st =>
      have hts : (tellStart st).2 = st.ts := rfl
      rw [Option.map_some, Option.filter_some, hts]
      by_cases hdue : n.thresholdConfig ≤ (c.ktime - st.ts) / 1000
      · simp only [hdue, hroom.2, and_self, decide_true, if_true]
        rfl
      · simp only [hdue, false_and, decide_false, Bool.false_eq_true, if_false]
        rfl

structure Holds (threshold : UInt64) (pending : Pending) (m : IosnoopProbes.Maps)
    (n : IoslowerProbes.Maps) : Prop where
  snoopUnfiltered : m.mountFilterCfg.enabled = 0
  slowUnfiltered : n.mountFilterCfg.enabled = 0
  threshold_eq : n.thresholdConfig = threshold
  snoop : ∀ t hook, (m.opState.lookup (key t hook)).map tell =
    (pending t).bind fun p => if p.2.hook = hook then told p.2 else none
  slow : ∀ t, (n.opStart.lookup t).map tellStart =
    (pending t).bind fun p => (told p.2).map (·, p.1.ktime)

variable {threshold : UInt64} {pending : Pending}

theorem Holds.enter (h : Holds threshold pending m n) (hseen : Seen c c') (hroom : c.Roomy)
    (hroom' : c'.Roomy) {call : Call} (hfree : pending c'.pidTgid = none) :
    Holds threshold (Function.update pending c'.pidTgid (some (c', call)))
      (IosnoopProbes.enter m c call) (IoslowerProbes.enter n c' call) := by
  have hnone : m.opState.lookup (key c.pidTgid call.hook) = none := by
    have hsnoop := h.snoop c'.pidTgid call.hook
    rwa [hfree, Option.bind_none, Option.map_eq_none_iff, ← hseen.pidTgid] at hsnoop
  have hnone' : n.opStart.lookup c'.pidTgid = none := by
    have hslow := h.slow c'.pidTgid
    rwa [hfree, Option.bind_none, Option.map_eq_none_iff] at hslow
  refine ⟨?_, ?_, ?_, fun t hook => ?_, fun t => ?_⟩
  · rw [IosnoopProbes.enter_cfg, h.snoopUnfiltered]
  · rw [IoslowerProbes.enter_spec, h.slowUnfiltered]
  · rw [IoslowerProbes.enter_thresholdConfig, h.threshold_eq]
  · rw [enter_snoop h.snoopUnfiltered hroom hnone, Function.update_apply, hseen.pidTgid]
    by_cases ht : t = c'.pidTgid
    · subst ht
      rw [if_pos rfl, Option.bind_some]
      by_cases hhook : call.hook = hook
      · rw [if_pos (key_inj.mpr ⟨rfl, hhook.symm⟩), if_pos hhook, told_snoop]
      · rw [if_neg fun heq => hhook (key_inj.mp heq).2.symm, if_neg hhook, h.snoop, hfree,
          Option.bind_none]
    · rw [if_neg fun heq => ht (key_inj.mp heq).1, if_neg ht, h.snoop]
  · rw [enter_slow h.slowUnfiltered hroom' hnone', Function.update_apply]
    split_ifs with ht
    · exact told_slow n c' call
    · exact h.slow t

theorem Holds.leave (h : Holds threshold pending m n) (hseen : Seen c c') {hook : Hook}
    {ret : UInt64} (hturn : ∀ p, pending c'.pidTgid = some p → p.2.hook = hook) :
    Holds threshold (Function.update pending c'.pidTgid none)
      (IosnoopProbes.leave m c hook ret) (IoslowerProbes.leave n c' hook ret) := by
  refine ⟨?_, ?_, ?_, fun t hook' => ?_, fun t => ?_⟩
  · rw [IosnoopProbes.leave_cfg, h.snoopUnfiltered]
  · rw [IoslowerProbes.leave_spec, h.slowUnfiltered]
  · rw [IoslowerProbes.leave_thresholdConfig, h.threshold_eq]
  · rw [IosnoopProbes.leave_spec, ← key, hseen.pidTgid]
    dsimp only
    rw [HashMap.lookup_erase_eq, Function.update_apply]
    by_cases ht : t = c'.pidTgid
    · subst ht
      rw [if_pos rfl, Option.bind_none]
      split_ifs with hkey
      · rfl
      · rw [h.snoop, Option.bind_eq_none_iff]
        intro p hp
        rw [hturn p hp, if_neg fun heq => hkey (key_inj.mpr ⟨rfl, heq.symm⟩)]
    · rw [if_neg fun heq => ht (key_inj.mp heq).1, if_neg ht, h.snoop]
  · rw [IoslowerProbes.leave_spec]
    dsimp only
    rw [HashMap.lookup_erase_eq, Function.update_apply]
    split_ifs with ht
    · rfl
    · exact h.slow t

theorem reportOf_seen (hseen : Seen c c') : reportOf c = reportOf c' := by
  funext ret what
  simp only [reportOf, ProbeContext.pid, hseen.pidTgid, hseen.uidGid, hseen.comm]

theorem report_snoop (entry exit : ProbeContext) (call : Call) (ret : UInt64) :
    ((told call).map (reportOf exit (call.hook.reportedRet ret))).toList =
      [(⟨entry, call, exit, ret⟩ : Completion)].filterMap Completion.report := by
  rw [List.filterMap_cons, Completion.report]
  cases told call <;> rfl

theorem report_slow (entry exit : ProbeContext) (call : Call) (ret : UInt64) :
    (((((told call).map (·, entry.ktime)).filter
        fun x => threshold ≤ (exit.ktime - x.2) / 1000).map
          fun x => reportOf exit (call.hook.reportedRet ret) x.1).toList) =
      ([⟨entry, call, exit, ret⟩].filter fun k : Completion => threshold ≤ k.micros).filterMap
        Completion.report := by
  have hreport : Completion.report ⟨entry, call, exit, ret⟩ =
      (told call).map (reportOf exit (call.hook.reportedRet ret)) := rfl
  have hmicros : Completion.micros ⟨entry, call, exit, ret⟩ =
      (exit.ktime - entry.ktime) / 1000 := rfl
  rw [List.filter_cons, List.filter_nil, hmicros]
  by_cases hdue : threshold ≤ (exit.ktime - entry.ktime) / 1000
  · rw [if_pos (decide_eq_true hdue), List.filterMap_cons, hreport]
    cases told call <;> simp [hdue]
  · rw [if_neg (by simpa using hdue), List.filterMap_nil]
    cases told call <;> simp [UInt64.not_le.mp hdue]

theorem Holds.run {fs gs : List Firing} {ks : List Completion} (h : Holds threshold pending m n)
    (hsame : List.Forall₂ Same fs gs) (hcomplete : complete pending gs = some ks)
    (hroom : ∀ f ∈ fs, f.context.Roomy) (hroom' : ∀ g ∈ gs, g.context.Roomy) :
    (fs.foldl IosnoopProbes.fire m).events.map snoopReport =
        m.events.map snoopReport ++ ks.filterMap Completion.report ∧
      (gs.foldl IoslowerProbes.fire n).events.map slowReport =
        n.events.map slowReport ++
          (ks.filter fun k => threshold ≤ k.micros).filterMap Completion.report := by
  induction hsame generalizing pending m n ks with
  | nil =>
      cases hcomplete
      simp
  | @cons f g fs gs hfg hrest ih =>
      obtain ⟨hf, hfs⟩ := List.forall_mem_cons.mp hroom
      obtain ⟨hg, hgs⟩ := List.forall_mem_cons.mp hroom'
      rw [List.foldl_cons, List.foldl_cons]
      cases hfg with
      | @enter c c' hseen call =>
          cases hfree : pending c'.pidTgid with
          | some p => simp [complete, hfree] at hcomplete
          | none =>
              simp only [complete, hfree] at hcomplete
              have hruns := ih (h.enter hseen hf hg hfree) hcomplete hfs hgs
              rwa [IosnoopProbes.enter_events, IoslowerProbes.enter_events] at hruns
      | @leave c c' hseen hook ret =>
          have hsnoop := @snoop_exit m c hf hook ret
          have hslow := @slow_exit n c' hg hook ret
          rw [h.snoop, hseen.pidTgid, reportOf_seen hseen] at hsnoop
          rw [h.slow, h.threshold_eq] at hslow
          cases hp : pending c'.pidTgid with
          | none =>
              simp only [complete, hp] at hcomplete
              have hholds := @Holds.leave _ _ _ _ _ _ h hseen hook ret (by simp [hp])
              rw [← hp, Function.update_eq_self] at hholds
              have hruns := ih hholds hcomplete hfs hgs
              rw [hp] at hsnoop hslow
              simp only [Option.bind_none, Option.map_none, Option.filter_none, Option.toList_none,
                List.append_nil] at hsnoop hslow
              rwa [hsnoop, hslow] at hruns
          | some p =>
              obtain ⟨entry, call⟩ := p
              simp only [complete, hp, Option.ite_none_right_eq_some, Option.map_eq_some_iff]
                at hcomplete
              obtain ⟨rfl, ks, hrest, rfl⟩ := hcomplete
              have hholds := @Holds.leave _ _ _ _ _ _ h hseen call.hook ret
                (by rintro p hp'; cases hp.symm.trans hp'; rfl)
              have hruns := ih hholds hrest hfs hgs
              rw [hp, Option.bind_some, if_pos rfl, report_snoop entry] at hsnoop
              rw [hp, Option.bind_some, report_slow] at hslow
              rw [hsnoop, hslow] at hruns
              rw [List.append_assoc, List.append_assoc, ← List.filterMap_append,
                ← List.filterMap_append, ← List.filter_append] at hruns
              exact hruns

end

/-- Without a mount filter and without traced calls inside one another, whatever the
interleaving of threads: iosnoop reports the calls that complete, each once and in the order
of their returns, and ioslower those that take at least its threshold, in the same words. -/
theorem reports_agree {threshold : UInt64} {cfg cfg' : MountFilterCfg} {fs gs : List Firing}
    {ks : List Completion} (hcfg : cfg.enabled = 0) (hcfg' : cfg'.enabled = 0)
    (hsame : List.Forall₂ Same fs gs) (hcomplete : complete (fun _ => none) gs = some ks)
    (hroom : ∀ f ∈ fs, f.context.Roomy) (hroom' : ∀ g ∈ gs, g.context.Roomy) :
    (fs.foldl IosnoopProbes.fire (.fresh cfg)).events.map snoopReport =
        ks.filterMap Completion.report ∧
      (gs.foldl IoslowerProbes.fire (.fresh threshold cfg')).events.map slowReport =
        (ks.filter fun k => threshold ≤ k.micros).filterMap Completion.report := by
  have hstart : Holds threshold (fun _ => none) (.fresh cfg) (.fresh threshold cfg') := by
    refine ⟨hcfg, hcfg', rfl, fun t hook => ?_, fun t => ?_⟩
    · rw [IosnoopProbes.Maps.fresh, Finmap.lookup_empty]
      rfl
    · rw [IoslowerProbes.Maps.fresh, Finmap.lookup_empty]
      rfl
  exact hstart.run hsame hcomplete hroom hroom'

/-- Two threads, one of which reads for 20 ms; ioslower hits a microsecond later. -/
def overlapping (late : UInt64) : List Firing :=
  [.openOn (.roomy 7 late) 0x800001 "a",
    .enter (.roomy 8 (1000 + late))
      (.vfsRead (some ⟨some ⟨some ⟨0x800001⟩, some (bytes "b")⟩, none, 0⟩) 40 none),
    .leave (.roomy 7 (2000 + late)) .vfsOpen 0, .leave (.roomy 8 (20001000 + late)) .vfsRead 40]

theorem reports_agree_overlapping : ∃ ks, complete (fun _ => none) (overlapping 1000) = some ks ∧
    ks.length = 2 ∧ (ks.filter fun k => 10000 ≤ k.micros).length = 1 ∧
      ((overlapping 0).foldl IosnoopProbes.fire (.fresh ⟨0, 0, 0⟩)).events.map snoopReport =
        ks.filterMap Completion.report ∧
      ((overlapping 1000).foldl IoslowerProbes.fire (.fresh 10000 ⟨0, 0, 0⟩)).events.map
        slowReport = (ks.filter fun k => 10000 ≤ k.micros).filterMap Completion.report := by
  have hseen : ∀ thread t t' : UInt64, Seen (.roomy thread t) (.roomy thread t') :=
    fun _ _ _ => ⟨rfl, rfl, rfl⟩
  have hsame : List.Forall₂ Same (overlapping 0) (overlapping 1000) :=
    .cons (.enter (hseen ..) _) <| .cons (.enter (hseen ..) _) <|
      .cons (.leave (hseen ..) _ _) <| .cons (.leave (hseen ..) _ _) .nil
  refine ⟨_, rfl, rfl, by decide +kernel, reports_agree rfl rfl hsame rfl (by decide) (by decide)⟩

end MonitoringTools.ToolAgreement
