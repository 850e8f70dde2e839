import MonitoringTools.ArgumentFormatting
import MonitoringTools.FdPathTable
import MonitoringTools.IosnoopFilter

/-!
# What iosnoop prints of what it traced

The loader prints the events of its probes in the order of the ring. No argument string
of a probe names a descriptor, so the table of descriptors never shows: every line shows
the name and the arguments that the entry recorded. The strings of an event end inside
their arrays, as the format of the line requires.
-/
namespace MonitoringTools.IosnoopReports
open ArgumentFormatting ArgumentText BpfHelpers CNumbers CStrings FdPathTable FilesystemProbes
  IosnoopFilter IosnoopProbes

/-- The array holds a terminator. -/
def Ends {n : ℕ} (b : Buffer n) : Prop := 0 ∈ b.1

instance {n : ℕ} (b : Buffer n) : Decidable (Ends b) := inferInstanceAs (Decidable (0 ∈ b.1))

/-- The bytes before the terminator, as C reads them. -/
def chars (bs : List UInt8) : CString := (bs.takeWhile (· ≠ 0)).map fun b => Char.ofNat b.toNat

/-- The string of a terminated array. -/
def stringOf {n : ℕ} (b : Buffer (n + 1)) : Text (n + 1) :=
  ⟨(chars b.1).take n, Nat.lt_succ_of_le (List.length_take_le _ _)⟩

/-- The event as the callback receives it. -/
def received (e : Event) : IoEvent :=
  ⟨e.ts, e.pid, e.type, e.ret, stringOf e.comm, stringOf e.fname, stringOf e.args⟩

/-- The lines that the loader prints, event by event. -/
def printed (paths : List FdPathEntry) : List IoEvent → List Row
  | [] => []
  | e :: rest =>
      let handled := handleEvent paths sizeofIoEvent e
      handled.row.toList ++ printed handled.paths rest

/-- A line made of the event alone. -/
def ownRow (e : Event) : Row where
  seconds := e.ts / 1000000000
  pid := e.pid.toInt32
  comm := chars e.comm.1
  type := ioTypeStr e.type
  ret := e.ret
  args := if chars e.args.1 = [] then cstr "-" else chars e.args.1
  path := chars e.fname.1

structure ShowsOwn (events : List Event) (rows : List Row) : Prop where
  /-- One line for each event, in order, of what the event itself holds. -/
  rows_eq : rows = events.map ownRow
  /-- The type of every event has a name. -/
  named : ∀ row ∈ rows, row.type ≠ "UNKNOWN"
  /-- The strings of an event end inside their arrays. -/
  ends : ∀ e ∈ events, Ends e.comm ∧ Ends e.fname ∧ Ends e.args

/-- An argument string that is empty or starts with a label other than that of a
descriptor. -/
def Labelled (ps : List Piece) : Prop :=
  ps = [] ∨ ∃ s rest, ps = .lit s :: rest ∧ 3 ≤ s.length ∧ s.length ≤ 40 ∧
    (s.take 3).map (fun b => Char.ofNat b.toNat) ≠ cstr "fd="

theorem labelled_lit {s : String} (rest : List Piece) (h : 3 ≤ (bytes s).length ∧
    (bytes s).length ≤ 40 ∧ ((bytes s).take 3).map (fun b => Char.ofNat b.toNat) ≠ cstr "fd=") :
    Labelled (.lit (bytes s) :: rest) := .inr ⟨bytes s, rest, rfl, h⟩

/-- A literal of the source ends at its terminator. -/
def literalEnds : Piece → Bool
  | .lit s => !s.contains 0
  | _ => true

theorem terminated_of_all {ps : List Piece} (h : ps.all literalEnds = true) : Terminated ps := by
  intro s hs hzero
  have hlit := List.all_eq_true.mp h _ hs
  simp [literalEnds, hzero] at hlit

theorem terminated_pair {s : String} (h : literalEnds (.lit (bytes s)) = true) (bs : List UInt8) :
    Terminated [.lit (bytes s), .lit (bs.takeWhile (· ≠ 0))] := by
  intro t ht hzero
  rcases List.mem_cons.mp ht with heq | hlast
  · obtain rfl := Piece.lit.inj heq
    simp [literalEnds, hzero] at h
  · obtain rfl := Piece.lit.inj (List.mem_singleton.mp hlast)
    simpa using List.mem_takeWhile_imp hzero

/-- Every entry handler formats its arguments behind a label of its own. -/
theorem entryCtx_args {m : Maps} {c : ProbeContext} {call : Call} {op : OpCtx}
    (h : entryCtx m c call = some op) :
    ∃ ps, op.args = format 128 ps ∧ Terminated ps ∧ Labelled ps := by
  cases call
  case vfsSymlink dir dentry oldname | vfsLink oldDentry dir newDentry =>
    all_goals cases h; exact ⟨_, rfl, terminated_pair (by decide) _, labelled_lit _ (by decide)⟩
  case vfsRename rd | vfsGetattr path _ _ | vfsTruncate path _ | doMmap path _ _ =>
    all_goals first | cases rd | cases path
    all_goals simp only [entryCtx, traceVfsRenameEnter, traceVfsGetattrEnter,
      traceVfsTruncateEnter, traceDoMmapKp, reduceCtorEq, Option.some.injEq] at h
    all_goals subst h
    all_goals refine ⟨_, rfl, terminated_of_all rfl, ?_⟩
    all_goals first | exact .inl rfl | exact labelled_lit _ (by decide)
  all_goals
    cases h
    refine ⟨_, rfl, terminated_of_all rfl, ?_⟩
    first | exact .inl rfl | exact labelled_lit _ (by decide)

section Strings
variable {n : ℕ}

theorem ends_ofString (hn : 0 < n) (s : List UInt8) : Ends (Buffer.ofString n s) := by
  have hlength : ((s.takeWhile (· ≠ 0)).take (n - 1)).length < n :=
    (List.length_take_le _ _).trans_lt (Nat.sub_lt hn Nat.one_pos)
  refine List.mem_append_right _ (List.mem_replicate.mpr ⟨?_, rfl⟩)
  omega

theorem ends_zero (hn : 0 < n) : Ends (Buffer.zero n) :=
  List.mem_replicate.mpr ⟨hn.ne', rfl⟩

theorem ends_readDentryName (hn : 0 < n) (dentry : Option Dentry) :
    Ends (readDentryName dentry n) := by
  unfold readDentryName
  split
  · exact ends_ofString hn _
  · exact ends_zero hn

theorem ends_format (hn : 1 ≤ n) (ps : List Piece) : Ends (format n ps) := by
  unfold Ends
  rw [format_cells hn, BoundedText.cells_split]
  exact List.mem_append_right _ List.mem_cons_self

theorem Ends.widen {b : Buffer n} (h : Ends b) (k : ℕ) : Ends (b.widen k) :=
  List.mem_append_left _ h

theorem Ends.length_chars {b : Buffer n} (h : Ends b) : (chars b.1).length < n := by
  have hless : (b.1.takeWhile (· ≠ 0)).length < b.1.length := by
    refine lt_of_le_of_ne (List.takeWhile_prefix _).length_le fun heq => ?_
    have hmem : 0 ∈ b.1.takeWhile (· ≠ 0) := by
      rw [(List.takeWhile_prefix _).eq_of_length heq]
      exact h
    simpa using List.mem_takeWhile_imp hmem
  rw [chars, List.length_map]
  exact hless.trans_eq b.2

theorem stringOf_eq {b : Buffer (n + 1)} (h : Ends b) : (stringOf b).1 = chars b.1 :=
  List.take_of_length_le (Nat.le_of_lt_succ h.length_chars)

theorem chars_widen {b : Buffer n} (h : Ends b) (k : ℕ) : chars (b.widen k).1 = chars b.1 := by
  have hshort : (b.1.takeWhile (· ≠ 0)).length ≠ b.1.length := by
    have hlength := h.length_chars
    rw [chars, List.length_map] at hlength
    rw [b.2]
    exact hlength.ne
  rw [chars, chars, Buffer.widen, List.takeWhile_append, if_neg hshort]

theorem chars_format (hn : 1 ≤ n) {ps : List Piece} (h : Terminated ps) : chars (format n ps).1 =
    ((ps.flatMap written).take (n - 1)).map fun b => Char.ofNat b.toNat := by
  have hfree : 0 ∉ (cut n (ps.flatMap written)).text := fun hzero =>
    zero_notMem_written h (List.mem_of_mem_take hzero)
  rw [chars, format_cells hn, BoundedText.takeWhile_cells 0 [] hfree]
  rfl

end Strings

/-- Behind another label no descriptor is found. -/
theorem parseFdFromArgs_labelled {ps : List Piece} (h : Terminated ps) (hlabel : Labelled ps) :
    parseFdFromArgs (chars (format 128 ps).1) = -1 := by
  have hother : strncmpEq (chars (format 128 ps).1) (cstr "fd=") 3 = false := by
    rw [chars_format (by decide) h, strncmpEq, beq_eq_false_iff_ne]
    rcases hlabel with rfl | ⟨s, rest, rfl, hlong, hshort, hne⟩
    · decide
    · have hfit : s.take 40 = s := List.take_of_length_le hshort
      have hlabel : (cstr "fd=").take 3 = cstr "fd=" := by decide
      rw [← List.map_take, List.take_take, List.flatMap_cons, written, hfit, hlabel,
        Nat.min_eq_left (by decide), List.take_append_of_le_length hlong]
      exact hne
  rw [parseFdFromArgs, hother]
  rfl

structure Made (e : Event) : Prop where
  fname : ∃ name : Buffer 96, e.fname = name.widen 160 ∧ Ends name
  args : ∃ ps, e.args = (format 128 ps).widen 128 ∧ Terminated ps ∧ Labelled ps
  type : ∃ hook, e.type = exitType hook

theorem ends_entryCtx_fname {m : Maps} {c : ProbeContext} {call : Call} {op : OpCtx}
    (h : entryCtx m c call = some op) : Ends op.fname := by
  cases call
  case vmMunmap start len =>
    cases h
    exact ends_zero (by decide)
  case vfsRename rd | vfsGetattr path _ _ | vfsTruncate path _ | doMmap path _ _ =>
    all_goals first | cases rd | cases path
    all_goals simp only [entryCtx, traceVfsRenameEnter, traceVfsGetattrEnter,
      traceVfsTruncateEnter, traceDoMmapKp, reduceCtorEq, Option.some.injEq] at h
    all_goals subst h
    all_goals exact ends_readDentryName (by decide) _
  all_goals
    cases h
    exact ends_readDentryName (by decide) _

/-- Every event of a run was made at an exit from what an entry recorded. -/
theorem made_of_mem {cfg : MountFilterCfg} {fs : List Firing} {e : Event}
    (h : e ∈ (reached cfg fs).events) : Made e ∧ ∃ f ∈ fs, e.comm = f.context.comm := by
  obtain ⟨upto, c, hook, ret, after, op, rfl, hop, rfl⟩ := events_provenance h
  obtain ⟨before, c', call, middle, rfl, -, hstored⟩ := opState_provenance hop
  have hentry := (storedCtx_some.mp hstored).1
  obtain ⟨ps, hargs, hends, hlabel⟩ := entryCtx_args hentry
  refine ⟨⟨⟨op.fname, rfl, ends_entryCtx_fname hentry⟩, ⟨ps, ?_, hends, hlabel⟩,
    ⟨call.hook, entryCtx_type hentry⟩⟩, .leave c hook ret, by simp, rfl⟩
  rw [eventOf, hargs]

theorem Made.ends {e : Event} (h : Made e) : Ends e.fname ∧ Ends e.args := by
  obtain ⟨name, hname, hends⟩ := h.fname
  obtain ⟨ps, hargs, -⟩ := h.args
  rw [hname, hargs]
  exact ⟨hends.widen _, (ends_format (by decide) ps).widen _⟩

theorem made_ends_of_mem {cfg : MountFilterCfg} {fs : List Firing}
    (hcomm : ∀ f ∈ fs, Ends f.context.comm) :
    ∀ e ∈ (reached cfg fs).events, Made e ∧ Ends e.comm := by
  intro e he
  obtain ⟨hmade, f, hf, heq⟩ := made_of_mem he
  exact ⟨hmade, heq ▸ hcomm f hf⟩

/-- The callback prints the event as it is, whatever the table holds. -/
theorem Made.row {e : Event} (h : Made e) (hcomm : Ends e.comm) (paths : List FdPathEntry) :
    (handleEvent paths sizeofIoEvent (received e)).row = some (ownRow e) := by
  obtain ⟨hfname, hargs⟩ := h.ends
  have hfd : parseFdFromArgs (received e).args.1 = -1 := by
    obtain ⟨ps, hps, hends, hlabel⟩ := h.args
    rw [received, stringOf_eq hargs, hps, chars_widen (ends_format (by decide) ps)]
    exact parseFdFromArgs_labelled hends hlabel
  have hlength : (chars e.args.1).length ≤ 255 := Nat.le_of_lt_succ hargs.length_chars
  have hshown : snprintf 256 (chars e.args.1) = chars e.args.1 := List.take_of_length_le hlength
  rw [handleEvent, if_neg (lt_irrefl _)]
  simp only [hfd, Int.reduceNeg, Int.reduceLE, false_and, if_false]
  simp only [received, stringOf_eq hcomm, stringOf_eq hfname, stringOf_eq hargs, hshown]
  rfl

theorem ioTypeStr_exitType (hook : Hook) : ioTypeStr (exitType hook) ≠ "UNKNOWN" := by
  cases hook <;> decide

theorem printed_made {events : List Event} (h : ∀ e ∈ events, Made e ∧ Ends e.comm)
    (paths : List FdPathEntry) : printed paths (events.map received) = events.map ownRow := by
  induction events generalizing paths with
  | nil => rfl
  | cons e events ih =>
      obtain ⟨⟨hmade, hcomm⟩, hrest⟩ := List.forall_mem_cons.mp h
      rw [List.map_cons, List.map_cons, printed]
      simp only [hmade.row hcomm, ih hrest]
      rfl

/-- Whatever the probes trace, the loader prints each event as the event itself reads:
the descriptor table that it keeps never changes a line. -/
theorem printed_showsOwn {cfg : MountFilterCfg} {fs : List Firing}
    (hcomm : ∀ f ∈ fs, Ends f.context.comm) :
    ShowsOwn (reached cfg fs).events (printed [] ((reached cfg fs).events.map received)) := by
  have hmade := @made_ends_of_mem cfg fs hcomm
  have hrows := printed_made hmade []
  refine ⟨hrows, fun row hrow => ?_, fun e he => ⟨(hmade e he).2, (hmade e he).1.ends⟩⟩
  rw [hrows] at hrow
  obtain ⟨e, he, rfl⟩ := List.mem_map.mp hrow
  obtain ⟨hook, hhook⟩ := (hmade e he).1.type
  rw [ownRow, hhook]
  exact ioTypeStr_exitType hook

/-- A read inside an open that returns descriptor 0 to a process. -/
def readInsideOpen : List Firing :=
  [.openOn (.roomy 7 0) 0x800001 "a",
    .enter (.roomy 7 1)
      (.vfsRead (some ⟨some ⟨some ⟨0x800001⟩, some (bytes "b")⟩, none, 0⟩) 40 none),
    .leave (.roomy 7 2) .vfsRead 40, .leave (.roomy 7 3) .vfsOpen 0]

theorem printed_showsOwn_readInsideOpen : (reached ⟨0, 0, 0⟩ readInsideOpen).events.length = 2 ∧
    ShowsOwn (reached ⟨0, 0, 0⟩ readInsideOpen).events
      (printed [] ((reached ⟨0, 0, 0⟩ readInsideOpen).events.map received)) :=
  ⟨by decide +kernel, printed_showsOwn (by decide)⟩

end MonitoringTools.IosnoopReports
