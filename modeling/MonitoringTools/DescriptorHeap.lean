import MonitoringTools.FdPathTable
import MonitoringTools.LinkedHeap

/-!
# The descriptor table in memory

The list of the loader as its nodes lie in memory. The loops follow the links; deletion
works on the place that stores the link to the current node. What the allocator answers
is an input: no memory, or the address of a node that is not live.
-/
namespace MonitoringTools.DescriptorHeap
open CStrings FdPathTable IosnoopProbes LinkedHeap Runs

abbrev FdPaths := Linked FdPathEntry

/-- One call of the callback: the event, the size of its record and the answer to a
call of `calloc`. -/
structure Delivery where
  e : IoEvent
  dataSz : ℕ
  calloc : Option ℕ

def fdPathLookup (fuel : ℕ) (s : FdPaths) (pid : UInt32) (fd : ℤ) : Option (Option ℕ) :=
  s.find (·.is pid fd) fuel s.head

def fdPathSet (fuel : ℕ) (calloc : Option ℕ) (s : FdPaths) (pid : UInt32) (fd : ℤ)
    (path : CString) : Option FdPaths :=
  if path = [] ∨ fd < 0 then some s
  else
    (s.find (·.is pid fd) fuel s.head).bind fun
      | some it => s.modify (fun entry => {entry with path := snprintf 256 path}) it
      | none =>
          match calloc with
          | none => some s
          | some entry => some (s.push entry ⟨pid, fd, snprintf 256 path⟩)

def fdPathDel (fuel : ℕ) (s : FdPaths) (pid : UInt32) (fd : ℤ) : Option FdPaths :=
  s.remove (·.is pid fd) fuel .head

def fdPathFreeAll (fuel : ℕ) (s : FdPaths) : Option FdPaths := s.freeAll fuel s.head

structure Handled where
  ret : ℤ
  paths : FdPaths
  row : Option Row

/-- The path of the line: the mapped one is read from its node. -/
def pathDisp (fuel : ℕ) (s : FdPaths) (e : IoEvent) (fd : ℤ) : Option CString :=
  if 0 ≤ fd ∧ isFdBasedType e.type then
    (fdPathLookup fuel s e.pid fd).bind fun
      | some it => (s.heap.lookup it).map fun node => node.value.path
      | none => some e.fname.1
  else some e.fname.1

def handleEvent (fuel : ℕ) (s : FdPaths) (d : Delivery) : Option Handled :=
  let e := d.e
  if d.dataSz < sizeofIoEvent then some ⟨1, s, none⟩
  else
    let argsDisp := if e.args.1 = [] then cstr "-" else snprintf 256 e.args.1
    let opened :=
      if (e.type = ioOpen ∨ e.type = ioOpenat) ∧ 0 ≤ e.ret.toInt then
        fdPathSet fuel d.calloc s e.pid e.ret.toInt e.fname.1
      else some s
    opened.bind fun s =>
      let fd := parseFdFromArgs e.args.1
      let onFd := 0 ≤ fd ∧ isFdBasedType e.type
      let argsDisp := if onFd then snprintf 256 (cstr s!"fd={fd}") else argsDisp
      (pathDisp fuel s e fd).bind fun path =>
        let row : Row :=
          ⟨e.ts / 1000000000, e.pid.toInt32, e.comm.1, ioTypeStr e.type, e.ret, argsDisp, path⟩
        let left := if e.type = ioClose ∧ 0 ≤ fd then fdPathDel fuel s e.pid fd else some s
        left.map fun s => ⟨0, s, some row⟩

structure Loader where
  paths : FdPaths
  rows : List Row

def Loader.start : Loader := ⟨Linked.empty, []⟩

def step (fuel : ℕ) (l : Loader) (d : Delivery) : Option Loader :=
  (handleEvent fuel l.paths d).map fun handled =>
    ⟨handled.paths, l.rows ++ handled.row.toList⟩

/-- The allocator hands out no node that is live. -/
def Fresh (l : Loader) (d : Delivery) : Prop :=
  ∀ addr ∈ d.calloc, l.paths.heap.lookup addr = none

instance (l : Loader) (d : Delivery) : Decidable (Fresh l d) :=
  inferInstanceAs (Decidable (∀ addr ∈ d.calloc, _))

structure Table where
  paths : List FdPathEntry
  rows : List Row
  deriving DecidableEq

/-- Without memory for a new entry the table stays as it is. -/
def Table.step (t : Table) (d : Delivery) : Table :=
  let handled := FdPathTable.handleEvent t.paths d.dataSz d.e
  let full := d.calloc = none ∧ t.paths.length < handled.paths.length
  ⟨if full then t.paths else handled.paths, t.rows ++ handled.row.toList⟩

/-- The entries of a list of nodes. -/
def entries (nodes : List (ℕ × FdPathEntry)) : List FdPathEntry := nodes.map Prod.snd

/-- The memory holds the entries of the table and nothing else. -/
def Refines (l : Loader) (t : Table) : Prop :=
  (∃ nodes, Holds l.paths nodes ∧ entries nodes = t.paths) ∧ l.rows = t.rows

/-- What the memory of the loader promises after a run. -/
structure MemorySafe (fuel : ℕ) (ds : List Delivery) (l : Loader) : Prop where
  /-- The live nodes are those of the list; its entries and the lines are the table's. -/
  refines : Refines l (ds.foldl Table.step ⟨[], []⟩)
  /-- Where records are whole and memory suffices, that is the map of open descriptors. -/
  tracked : (∀ d ∈ ds, d.calloc.isSome = true ∧ sizeofIoEvent ≤ d.dataSz) →
    ∃ nodes, Holds l.paths nodes ∧ entries nodes = pathsAfter (ds.map Delivery.e)
  /-- Freeing the list at the end frees every node once and leaves none. -/
  freed : fdPathFreeAll fuel l.paths = some Linked.empty

section Operations
variable {s : FdPaths} {nodes : List (ℕ × FdPathEntry)} {fuel : ℕ}

theorem overwrite_split {pid : UInt32} {fd : ℤ} {path : CString} {entry : FdPathEntry}
    {before after : List FdPathEntry} (hentry : entry.is pid fd = true)
    (hbefore : ∀ it ∈ before, it.is pid fd = false) :
    overwrite pid fd path (before ++ entry :: after) =
      some (before ++ {entry with path := snprintf 256 path} :: after) := by
  induction before with
  | nil => rw [List.nil_append, overwrite, if_pos hentry, List.nil_append]
  | cons it before ih =>
      obtain ⟨hit, hrest⟩ := List.forall_mem_cons.mp hbefore
      rw [List.cons_append, overwrite, if_neg (by simp [hit]), ih hrest]
      rfl

theorem overwrite_none {pid : UInt32} {fd : ℤ} {path : CString} {paths : List FdPathEntry}
    (h : ∀ it ∈ paths, it.is pid fd = false) : overwrite pid fd path paths = none := by
  induction paths with
  | nil => rfl
  | cons it paths ih =>
      obtain ⟨hit, hrest⟩ := List.forall_mem_cons.mp h
      rw [overwrite, if_neg (by simp [hit]), ih hrest]
      rfl

/-- Setting a path in memory sets it in the table, unless a new entry finds no memory. -/
theorem fdPathSet_spec (h : Holds s nodes) (hfuel : nodes.length < fuel) {calloc : Option ℕ}
    (hfresh : ∀ addr ∈ calloc, s.heap.lookup addr = none) (pid : UInt32) (fd : ℤ) (path : CString) :
    ∃ s' nodes', fdPathSet fuel calloc s pid fd path = some s' ∧ Holds s' nodes' ∧
      entries nodes' =
        let set := FdPathTable.fdPathSet (entries nodes) pid fd path
        if calloc = none ∧ (entries nodes).length < set.length then entries nodes else set := by
  unfold DescriptorHeap.fdPathSet FdPathTable.fdPathSet
  split
  next => exact ⟨s, nodes, rfl, h, by simp⟩
  next =>
      rw [h.find _ hfuel]
      cases hfind : nodes.find? fun node => node.2.is pid fd with
      | none =>
          have hnone : overwrite pid fd path (entries nodes) = none := by
            refine overwrite_none fun it hit => ?_
            obtain ⟨node, hnode, rfl⟩ := List.mem_map.mp hit
            simpa using List.find?_eq_none.mp hfind node hnode
          rw [hnone]
          cases calloc with
          | none => exact ⟨s, nodes, rfl, h, by simp⟩
          | some entry =>
              exact ⟨_, _, rfl, h.push (hfresh entry rfl) _, by simp [entries]⟩
      | some node =>
          obtain ⟨hnode, before, rest, rfl, hbefore⟩ := List.find?_eq_some_iff_append.mp hfind
          obtain ⟨addr, entry⟩ := node
          obtain ⟨s', hs', hholds⟩ :=
            h.modify fun entry => {entry with path := snprintf 256 path}
          have hset : overwrite pid fd path (entries (before ++ (addr, entry) :: rest)) =
              some (entries (before ++ (addr, {entry with path := snprintf 256 path}) :: rest)) := by
            rw [entries, entries, List.map_append, List.map_append]
            refine overwrite_split hnode fun it hit => ?_
            obtain ⟨node, hmem, rfl⟩ := List.mem_map.mp hit
            simpa using hbefore node hmem
          rw [hset]
          exact ⟨s', _, hs', hholds, by simp [entries]⟩

theorem fdPathDel_spec (h : Holds s nodes) (hfuel : nodes.length < fuel) (pid : UInt32) (fd : ℤ) :
    ∃ s' nodes', fdPathDel fuel s pid fd = some s' ∧ Holds s' nodes' ∧
      entries nodes' = FdPathTable.fdPathDel (entries nodes) pid fd := by
  obtain ⟨s', hs', hholds⟩ := h.remove (·.is pid fd) hfuel
  refine ⟨s', _, hs', hholds, ?_⟩
  rw [FdPathTable.fdPathDel, entries, entries, List.eraseP_map]
  rfl

theorem lookup_entries (nodes : List (ℕ × FdPathEntry)) (pid : UInt32) (fd : ℤ) :
    FdPathTable.fdPathLookup (entries nodes) pid fd =
      (nodes.find? fun node => node.2.is pid fd).map fun node => node.2.path := by
  rw [FdPathTable.fdPathLookup, entries, List.find?_map, Option.map_map]
  rfl

theorem pathDisp_spec (h : Holds s nodes) (hfuel : nodes.length < fuel) (e : IoEvent) (fd : ℤ) :
    pathDisp fuel s e fd = some (if 0 ≤ fd ∧ isFdBasedType e.type then
      (FdPathTable.fdPathLookup (entries nodes) e.pid fd).getD e.fname.1 else e.fname.1) := by
  rw [pathDisp]
  split
  next =>
      rw [DescriptorHeap.fdPathLookup, h.find _ hfuel, Option.bind_some, lookup_entries]
      cases hfind : nodes.find? fun node => node.2.is e.pid fd with
      | none => simp
      | some node =>
          obtain ⟨hnode, before, rest, rfl, hbefore⟩ := List.find?_eq_some_iff_append.mp hfind
          obtain ⟨addr, entry⟩ := node
          simp [h.lookup]
  next => rfl

theorem not_onFd_of_open {e : IoEvent} (h : e.type = ioOpen ∨ e.type = ioOpenat) :
    isFdBasedType e.type = false ∧ e.type ≠ ioClose := by
  rcases h with h | h <;> rw [h] <;> decide

/-- The callback works on memory as it works on the table. -/
theorem handleEvent_spec (h : Holds s nodes) (hfuel : nodes.length < fuel) {d : Delivery}
    (hfresh : ∀ addr ∈ d.calloc, s.heap.lookup addr = none) :
    let handled := FdPathTable.handleEvent (entries nodes) d.dataSz d.e
    ∃ s' nodes', handleEvent fuel s d = some ⟨handled.ret, s', handled.row⟩ ∧ Holds s' nodes' ∧
      entries nodes' =
        if d.calloc = none ∧ (entries nodes).length < handled.paths.length then entries nodes
        else handled.paths := by
  unfold DescriptorHeap.handleEvent FdPathTable.handleEvent
  split
  next => exact ⟨s, nodes, rfl, h, by simp⟩
  next =>
      by_cases hopen : (d.e.type = ioOpen ∨ d.e.type = ioOpenat) ∧ 0 ≤ d.e.ret.toInt
      · obtain ⟨hfd, hclose⟩ := not_onFd_of_open hopen.1
        obtain ⟨s', nodes', hs', hholds, hentries⟩ :=
          fdPathSet_spec h hfuel hfresh d.e.pid d.e.ret.toInt d.e.fname.1
        refine ⟨s', nodes', ?_, hholds, ?_⟩
        · simp [if_pos hopen, hs', hfd, hclose, pathDisp]
        · simpa only [if_pos hopen, hclose, false_and, if_false] using hentries
      · simp only [if_neg hopen, Option.bind_some, pathDisp_spec h hfuel]
        by_cases hclose : d.e.type = ioClose ∧ 0 ≤ parseFdFromArgs d.e.args.1
        · obtain ⟨s', nodes', hs', hholds, hentries⟩ := fdPathDel_spec h hfuel d.e.pid
            (parseFdFromArgs d.e.args.1)
          have hless : ¬ (entries nodes).length <
              (FdPathTable.fdPathDel (entries nodes) d.e.pid (parseFdFromArgs d.e.args.1)).length :=
            not_lt.mpr List.length_eraseP_le
          refine ⟨s', nodes', ?_, hholds, ?_⟩
          · simp only [if_pos hclose, hs', Option.map_some]
          · simpa only [if_pos hclose, hless, and_false, if_false] using hentries
        · refine ⟨s, nodes, ?_, h, ?_⟩
          · simp only [if_neg hclose, Option.map_some]
          · simp only [if_neg hclose, lt_irrefl, and_false, if_false]

end Operations

theorem length_fdPathSet (paths : List FdPathEntry) (pid : UInt32) (fd : ℤ) (path : CString) :
    (FdPathTable.fdPathSet paths pid fd path).length ≤ paths.length + 1 := by
  unfold FdPathTable.fdPathSet
  split
  · exact Nat.le_succ _
  · split
    next set hset =>
        have hkeys := congrArg List.length (keys_overwrite hset)
        rw [List.length_map, List.length_map] at hkeys
        omega
    next => exact Nat.le_refl _

/-- A record that is long enough counts as one of full size. -/
theorem handleEvent_full {dataSz : ℕ} (h : sizeofIoEvent ≤ dataSz) (paths : List FdPathEntry)
    (e : IoEvent) : FdPathTable.handleEvent paths dataSz e =
      FdPathTable.handleEvent paths sizeofIoEvent e := by
  rw [FdPathTable.handleEvent, FdPathTable.handleEvent, if_neg (not_lt.mpr h), if_neg (lt_irrefl _)]

theorem length_handleEvent (paths : List FdPathEntry) (dataSz : ℕ) (e : IoEvent) :
    (FdPathTable.handleEvent paths dataSz e).paths.length ≤ paths.length + 1 := by
  by_cases hshort : dataSz < sizeofIoEvent
  · rw [FdPathTable.handleEvent, if_pos hshort]
    exact Nat.le_succ _
  · rw [handleEvent_full (not_lt.mp hshort), handleEvent_paths]
    split_ifs
    · exact length_fdPathSet _ _ _ _
    · exact Nat.le_succ _
    · exact List.length_eraseP_le.trans (Nat.le_succ _)
    · exact Nat.le_succ _

theorem Table.length_step (t : Table) (d : Delivery) :
    (t.step d).paths.length ≤ t.paths.length + 1 := by
  rw [Table.step]
  dsimp only
  split
  · exact Nat.le_succ _
  · exact length_handleEvent _ _ _

theorem Table.length_foldl (t : Table) (ds : List Delivery) :
    (ds.foldl Table.step t).paths.length ≤ t.paths.length + ds.length := by
  induction ds generalizing t with
  | nil => exact Nat.le_refl _
  | cons d ds ih =>
      have hstep := t.length_step d
      have hrest := ih (t.step d)
      rw [List.foldl_cons, List.length_cons]
      omega

theorem step_refines {fuel : ℕ} {l : Loader} {t : Table} {d : Delivery} (h : Refines l t)
    (hfuel : t.paths.length < fuel) (hfresh : Fresh l d) :
    ∃ l', step fuel l d = some l' ∧ Refines l' (t.step d) := by
  obtain ⟨⟨nodes, hholds, hentries⟩, hrows⟩ := h
  have hlength : nodes.length < fuel := by
    rw [← hentries, entries, List.length_map] at hfuel
    exact hfuel
  obtain ⟨s', nodes', hs', hholds', hentries'⟩ := handleEvent_spec hholds hlength hfresh
  rw [hentries] at hs' hentries'
  refine ⟨⟨s', l.rows ++ (FdPathTable.handleEvent t.paths d.dataSz d.e).row.toList⟩, ?_,
    ⟨nodes', hholds', hentries'⟩, ?_⟩
  · rw [step, hs']
    rfl
  · exact congrArg (· ++ _) hrows

/-- All deliveries: no access faults, every loop ends, and the table is held throughout. -/
theorem run_refines {fuel : ℕ} {ds : List Delivery} {l : Loader} {t : Table} (h : Refines l t)
    (hfuel : t.paths.length + ds.length < fuel + 1) (hfresh : Along (step fuel) Fresh l ds) :
    ∃ l', run (step fuel) l ds = some l' ∧ Refines l' (ds.foldl Table.step t) := by
  induction ds generalizing l t with
  | nil => exact ⟨l, rfl, h⟩
  | cons d ds ih =>
      rw [List.length_cons] at hfuel
      have hroom : t.paths.length < fuel := by omega
      obtain ⟨l', hl', hrefines⟩ := step_refines h hroom hfresh.1
      have hlength := t.length_step d
      obtain ⟨u, hu, hrest⟩ := ih hrefines (by omega) (hfresh.2 l' hl')
      exact ⟨u, by rw [run_cons, hl', Option.bind_some, hu], hrest⟩

/-- Without short records and with memory for every entry, the table is the loader's list. -/
theorem foldl_step_paths {ds : List Delivery}
    (h : ∀ d ∈ ds, d.calloc.isSome = true ∧ sizeofIoEvent ≤ d.dataSz) :
    (ds.foldl Table.step ⟨[], []⟩).paths = pathsAfter (ds.map Delivery.e) := by
  induction ds using List.reverseRecOn with
  | nil => rfl
  | append_singleton ds d ih =>
      obtain ⟨hcalloc, hsize⟩ := h d (by simp)
      have hroom : d.calloc ≠ none := Option.isSome_iff_ne_none.mp hcalloc
      have hbefore := ih fun d hd => h d (by simp [hd])
      rw [List.foldl_append, List.foldl_cons, List.foldl_nil, Table.step, List.map_append,
        List.map_singleton, pathsAfter_concat, hbefore, handleEvent_full hsize]
      exact if_neg fun hfull => hroom hfull.1

/-- Whatever the events and the answers of the allocator, no access of the callback
faults, its loops end, nothing leaks and the list is freed exactly once. -/
theorem run_memorySafe {fuel : ℕ} {ds : List Delivery} (hfuel : ds.length < fuel)
    (hfresh : Along (step fuel) Fresh .start ds) :
    ∃ l, run (step fuel) .start ds = some l ∧ MemorySafe fuel ds l := by
  have hstart : Refines .start ⟨[], []⟩ := ⟨⟨[], Holds.empty, rfl⟩, rfl⟩
  have hroom : ([] : List FdPathEntry).length + ds.length < fuel + 1 := by
    rw [List.length_nil]
    omega
  obtain ⟨l, hl, hrefines⟩ := run_refines hstart hroom hfresh
  obtain ⟨⟨nodes, hholds, hentries⟩, -⟩ := id hrefines
  have hlength : nodes.length < fuel := by
    have htable := Table.length_foldl ⟨[], []⟩ ds
    rw [← hentries, entries, List.length_map, List.length_nil] at htable
    omega
  refine ⟨l, hl, hrefines, fun hall => ⟨nodes, hholds, ?_⟩, hholds.freeAll hlength⟩
  rw [hentries, foldl_step_paths hall]

/-- A descriptor opened, closed and opened again, the second time in the memory of the first. -/
def reopened : List Delivery :=
  let text : {n : ℕ} → (s : String) → (h : (cstr s).length < n) → Text n := fun s h => ⟨cstr s, h⟩
  let event : UInt8 → Int32 → Text 256 → Text 256 → IoEvent := fun type ret fname args =>
    ⟨0, 7, type, ret, text "cat" (by decide), fname, args⟩
  [⟨event ioOpen 3 (text "a" (by decide)) (text "" (by decide)), sizeofIoEvent, some 16⟩,
    ⟨event ioClose 0 (text "" (by decide)) (text "fd=3" (by decide)), sizeofIoEvent, none⟩,
    ⟨event ioOpen 3 (text "b" (by decide)) (text "" (by decide)), sizeofIoEvent, some 16⟩]

theorem run_memorySafe_reopened :
    ∃ l, run (step 4) .start reopened = some l ∧ MemorySafe 4 reopened l :=
  run_memorySafe (by decide) (by decide +kernel)

end MonitoringTools.DescriptorHeap
