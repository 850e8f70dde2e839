import MonitoringTools.AnsweredRequests
import MonitoringTools.DuplicateReturns
import MonitoringTools.IosnoopReports
import MonitoringTools.ToolAgreement

/-!
# From the calls to the lines of iosnoop

Threads interleave, a thread may have calls of several functions inside one another, and a
return may run two programs. Without a mount filter the loader prints one line for each call
that returns, in the order of the returns, with the arguments of its own entry.
-/
namespace MonitoringTools.IosnoopLines
open BpfHelpers FilesystemProbes IosnoopProbes FdPathTable IosnoopReports
open AnsweredRequests DuplicateReturns RequestTable Runs
open ToolAgreement (key key_inj storedCtx_unfiltered)

abbrev Inside := UInt64 × Hook

/-- A call begins at its entry and ends at its return. -/
def phase : Firing → Phase Inside Firing
  | .enter c call => .begins (c.pidTgid, call.hook) (.enter c call)
  | .leave c hook ret => .ends (c.pidTgid, hook) (.leave c hook ret)

/-- A record but for its device, which no line shows. -/
def shown (op : OpCtx) : OpCtx := {op with dev := 0}

def recorded (call : Call) : Option OpCtx :=
  (entryCtx (.fresh ⟨0, 0, 0⟩) (.roomy 0 0) call).map shown

/-- What the table holds of a call. -/
def record (_ : Inside) : Firing → Option OpCtx
  | .enter _ call => recorded call
  | .leave .. => none

/-- The line that a return prints of a record. -/
def emit : Firing → Option OpCtx → Option Row
  | .enter .., _ => none
  | .leave c hook ret, op => op.map fun op => ownRow (eventOf c op (hook.reportedRet ret))

/-- The line of a call, if its entry records one. -/
def lineOf (a : Answer Inside Firing) : Option Row := emit a.finish (record a.request a.start)

/-- Only the device of a record depends on the maps. -/
theorem shown_entryCtx (m : Maps) (c : ProbeContext) (call : Call) :
    (entryCtx m c call).map shown = recorded call := by
  cases call
  case vmMunmap => simp only [recorded, entryCtx, traceVmMunmapKp, Option.map_some, shown]
  all_goals simp only [recorded, entryCtx]

/-- The operation table as a table of requests. -/
def view (m : Maps) (q : Inside) : Option (Option OpCtx) :=
  (m.opState.lookup (key q.1 q.2)).map fun op => some (shown op)

theorem view_fresh (cfg : MountFilterCfg) : view (.fresh cfg) = fun _ => none := by
  funext q
  rw [view, Maps.fresh, Finmap.lookup_empty]
  rfl

section
variable {m : Maps}

theorem view_enter (hcfg : m.mountFilterCfg.enabled = 0) {c : ProbeContext} (hroom : c.Roomy)
    (call : Call) : view (enter m c call) =
      step Option.isSome (view m) (.start true true (c.pidTgid, call.hook) (recorded call)) := by
  funext q
  have hrecorded := shown_entryCtx m c call
  rw [view, enter_spec, storedCtx_unfiltered hcfg, ← hrecorded, step]
  cases entryCtx m c call with
  | none => rfl
  | some op =>
      simp only [hroom.1, HashMap.update_true, HashMap.lookup_insert_eq, Option.map_some,
        Option.isSome_some, Bool.and_self, Bool.true_or, if_true, Function.update_apply]
      rw [← key]
      by_cases hq : q = (c.pidTgid, call.hook)
      · subst hq
        rw [if_pos rfl, if_pos rfl]
        rfl
      · rw [if_neg hq, if_neg fun heq => hq (Prod.ext_iff.mpr (key_inj.mp heq))]
        rfl

theorem view_leave (c : ProbeContext) (hook : Hook) (ret : UInt64) :
    view (leave m c hook ret) = step Option.isSome (view m) (.finish (c.pidTgid, hook)) := by
  funext q
  rw [view, leave_spec, step, Function.update_apply, ← key]
  dsimp only
  rw [HashMap.lookup_erase_eq]
  by_cases hq : q = (c.pidTgid, hook)
  · subst hq
    rw [if_pos rfl, if_pos rfl]
    rfl
  · rw [if_neg hq, if_neg fun heq => hq (Prod.ext_iff.mpr (key_inj.mp heq))]
    rfl

theorem rows_leave {c : ProbeContext} (hroom : c.Roomy) (hook : Hook) (ret : UInt64) :
    (leave m c hook ret).events.map ownRow = m.events.map ownRow ++
      (report emit (view m) (.finish (c.pidTgid, hook), .leave c hook ret)).toList := by
  rw [leave_spec, List.map_append, exitEvents, report, view, ← key]
  cases m.opState.lookup (key c.pidTgid hook) with
  | none => rfl
  | some op =>
      simp only [hroom.2, if_true]
      rfl

theorem rows_run {fs : List Firing} (hcfg : m.mountFilterCfg.enabled = 0)
    (hroom : ∀ f ∈ fs, f.context.Roomy) : (fs.foldl fire m).events.map ownRow =
      m.events.map ownRow ++
        reports Option.isSome emit (view m) ((fs.map phase).map (Phase.op true id record)) := by
  induction fs generalizing m with
  | nil => exact (List.append_nil _).symm
  | cons f fs ih =>
      obtain ⟨hf, hfs⟩ := List.forall_mem_cons.mp hroom
      have hrest := @ih (fire m f) (by rw [fire_cfg, hcfg]) hfs
      rw [List.foldl_cons, hrest, List.map_cons, List.map_cons, reports]
      cases f with
      | enter c call =>
          rw [fire, enter_events, @view_enter m hcfg c hf]
          rfl
      | leave c hook ret =>
          rw [fire, view_leave, @rows_leave m c hf, List.append_assoc]
          rfl

end

theorem filterMap_lineOf (as : List (Answer Inside Firing)) :
    (as.filter fun a => (record a.request a.start).isSome).filterMap
      (fun a => emit a.finish (record a.request a.start)) = as.filterMap lineOf := by
  rw [List.filterMap_filter]
  refine List.filterMap_congr fun a _ => ?_
  split
  · rfl
  next hnone =>
      rw [Option.not_isSome_iff_eq_none] at hnone
      rw [lineOf, hnone]
      cases a.finish <;> rfl

/-- Whatever the interleaving of threads, the nesting of functions and the second programs of
returns: the lines are those of the calls that return, each once, in the order of the
returns. No thread calls a traced function inside itself. -/
theorem printed_answered {cfg : MountFilterCfg} {gs : List (Firing × Bool)}
    {as : List (Answer Inside Firing)} (hcfg : cfg.enabled = 0) (h : Echoed Repeats Apart gs)
    (hanswered : answered id (fun _ => none) ((originals gs).map phase) = some as)
    (hroom : ∀ f ∈ originals gs, f.context.Roomy)
    (hcomm : ∀ f ∈ originals gs, Ends f.context.comm) :
    printed [] (((gs.map Prod.fst).foldl fire (.fresh cfg)).events.map received) =
      as.filterMap lineOf := by
  have hmade : ∀ e ∈ ((originals gs).foldl fire (.fresh cfg)).events, Made e ∧ Ends e.comm :=
    made_ends_of_mem hcomm
  have hkept : kept Option.isSome record (fun _ : Inside => none) = view (.fresh cfg) := by
    rw [view_fresh]
    exact funext fun _ => kept_of_none rfl
  rw [iosnoop_echoes h, printed_made hmade, rows_run hcfg hroom, ← hkept,
    reports_answered hanswered, filterMap_lineOf]
  rfl

/-- A thread reads inside an open while another one renames, and the second program of the
rename runs late. -/
def renameMeanwhile : List (Firing × Bool) :=
  [(.openOn (.roomy 7 0) 0x800001 "a", false),
    (.enter (.roomy 9 1) (.vfsRename (some ⟨none, some ⟨some ⟨0x800001⟩⟩, none⟩)), false),
    (.enter (.roomy 7 2)
      (.vfsRead (some ⟨some ⟨some ⟨0x800001⟩, some (bytes "b")⟩, none, 0⟩) 40 none), false),
    (.leave (.roomy 9 3) .vfsRename 0, false), (.leave (.roomy 7 4) .vfsRead 40, false),
    (.leave (.roomy 9 5) .vfsRename 0, true), (.leave (.roomy 7 6) .vfsOpen 3, false)]

theorem echoed_renameMeanwhile : Echoed Repeats Apart renameMeanwhile := by
  refine @echoed_single _ Repeats Apart [_, _, _] [_] [_] _ _ ⟨_, _, _, _, rfl, rfl, rfl⟩ ?_
  simp [Apart, Firing.context, ProbeContext.roomy]

theorem printed_answered_renameMeanwhile : ∃ as,
    answered id (fun _ => none) ((originals renameMeanwhile).map phase) = some as ∧
      (as.filterMap lineOf).map Row.type = ["RENAME", "READ", "OPEN"] ∧
      printed [] (((renameMeanwhile.map Prod.fst).foldl fire (.fresh ⟨0, 0, 0⟩)).events.map
        received) = as.filterMap lineOf :=
  ⟨_, rfl, by decide +kernel,
    printed_answered rfl echoed_renameMeanwhile rfl (by decide) (by decide)⟩

end MonitoringTools.IosnoopLines
