import MonitoringTools.CommandLists
import MonitoringTools.NfsslowerProbes
import MonitoringTools.RequestTable
import MonitoringTools.SmbslowerTracepoints

/-!
# What the slow tracers record of a command

Both slow tracers are request tables behind a denylist that stays as it was
loaded: smbslower with its two tables taken as one, nfsslower with the table of
RPC tasks. So a started request leaves its record exactly when its command is
not denied and no request of another command holds its key where the table keeps
old records, and the command list decides the rest.
-/
namespace MonitoringTools.SlowCommands
open BpfHelpers DiagEvents CStrings CommandLists

/-- A request table behind a denylist. -/
structure SlowTracer where
  maxCommands : ℕ
  maxCommands_le : maxCommands ≤ 65536
  Key : Type
  [decidableEqKey : DecidableEq Key]
  Record : Type
  Maps : Type
  Firing : Type
  fresh : HashMap UInt16 UInt8 → Maps
  fire : Maps → Firing → Maps
  denylist : Maps → HashMap UInt16 UInt8
  table : Maps → Key → Option Record
  command : Record → UInt16
  /-- The start or finish of a request that a firing stands for. -/
  op : Firing → Option (RequestTable.Op Key Record)
  denylist_fresh : ∀ list, denylist (fresh list) = list
  denylist_fire : ∀ (m : Maps) (f : Firing), denylist (fire m f) = denylist m
  table_fresh : ∀ list, table (fresh list) = fun _ => none
  table_fire : ∀ (m : Maps) (f : Firing), table (fire m f) = (match op f with
    | none => table m
    | some op =>
        RequestTable.step (fun r => ((denylist m).lookup (command r)).isNone) (table m) op)

namespace SlowTracer
variable (t : SlowTracer)

instance : DecidableEq t.Key := t.decidableEqKey

def reached (list : HashMap UInt16 UInt8) (fs : List t.Firing) : t.Maps :=
  fs.foldl t.fire (t.fresh list)

/-- A firing starts a request of a command, and its table has room. -/
def Starts (f : t.Firing) (c : UInt16) : Prop :=
  ∃ overwrite key record, t.op f = some (.start overwrite true key record) ∧ t.command record = c

/-- A firing starts a request of a command under a key where the table keeps the record of
another command. -/
def Occupied (list : HashMap UInt16 UInt8) (fs : List t.Firing) (f : t.Firing) (c : UInt16) :
    Prop :=
  ∃ key record r, t.op f = some (.start false true key record) ∧
    t.table (t.reached list fs) key = some r ∧ t.command r ≠ c

/-- A firing leaves a record of a request of the command under its key. -/
def Recorded (list : HashMap UInt16 UInt8) (fs : List t.Firing) (f : t.Firing) (c : UInt16) :
    Prop :=
  ∃ op, t.op f = some op ∧ ∃ r, t.table (t.reached list (fs ++ [f])) op.key = some r ∧
    t.command r = c

variable {t}

theorem denylist_reached (list : HashMap UInt16 UInt8) (fs : List t.Firing) :
    t.denylist (t.reached list fs) = list := by
  induction fs using List.reverseRecOn with
  | nil => exact t.denylist_fresh list
  | append_singleton fs f ih => rwa [reached, List.foldl_concat, t.denylist_fire]

theorem table_reached (list : HashMap UInt16 UInt8) (fs : List t.Firing) :
    t.table (t.reached list fs) = RequestTable.run
      (fun r => (list.lookup (t.command r)).isNone) (fs.filterMap t.op) := by
  induction fs using List.reverseRecOn with
  | nil => exact t.table_fresh list
  | append_singleton fs f ih =>
      have hlist := denylist_reached list fs
      rw [reached] at ih hlist
      rw [reached, List.foldl_concat, t.table_fire, List.filterMap_append, hlist]
      cases hop : t.op f with
      | none => simpa [hop] using ih
      | some op =>
          rw [List.filterMap_cons_some hop, List.filterMap_nil, RequestTable.run_concat, ← ih]

/-- A started request is recorded exactly when its command is not denied and no request of
another command holds its key. -/
theorem recorded_iff {list : HashMap UInt16 UInt8} {fs : List t.Firing} {f : t.Firing}
    {c : UInt16} (h : t.Starts f c) :
    t.Recorded list fs f c ↔ list.lookup c = none ∧ ¬ t.Occupied list fs f c := by
  obtain ⟨overwrite, key, record, hop, rfl⟩ := h
  let passes (r : t.Record) : Bool := (list.lookup (t.command r)).isNone
  have hkind : ∀ r r', t.command r = t.command r' → passes r = passes r' := fun r r' hr =>
    congrArg (fun c => (list.lookup c).isNone) hr
  have htable : t.table (t.reached list (fs ++ [f])) = RequestTable.run passes
      (fs.filterMap t.op ++ [.start overwrite true key record]) := by
    rw [table_reached, List.filterMap_append, List.filterMap_cons_some hop, List.filterMap_nil]
  have hrecorded : t.Recorded list fs f (t.command record) ↔ ∃ r, RequestTable.run passes
      (fs.filterMap t.op ++ [.start overwrite true key record]) key = some r ∧
        t.command r = t.command record := by
    simp [Recorded, hop, htable, RequestTable.Op.key]
  have hfree : ¬ t.Occupied list fs f (t.command record) ↔ overwrite = true ∨
      ∀ r, RequestTable.run passes (fs.filterMap t.op) key = some r →
        t.command r = t.command record := by
    have hbefore : t.table (t.reached list fs) = RequestTable.run passes (fs.filterMap t.op) :=
      table_reached list fs
    rw [Occupied, hop, hbefore]
    cases overwrite <;> simp
  rw [hrecorded, hfree, RequestTable.start_recorded_iff hkind, ← Option.isNone_iff_eq_none]

end SlowTracer

section Smbslower
open SmbslowerProbes

/-- One firing of a program of smbslower; the release programs differ only in
how they come by the address. -/
inductive SmbFiring where
  | tracepoint (f : SmbslowerTracepoints.Firing)
  | midAllocFexit (c : DiagContext) (room : Bool) (mid : MidQEntry)
  | midAllocKretprobe (c : DiagContext) (room : Bool) (mid : Option MidQEntry)
  | midAllocRhel810Kretprobe (c : DiagContext) (room : Bool) (mid : Option MidQEntry)
  | midAllocRhel810553134Kretprobe (c : DiagContext) (room : Bool) (mid : Option MidQEntry)
  | midRelease (c : DiagContext) (ring : Fill) (addr : UInt64)

def smbFire (ro : SmbslowerProbes.Rodata) (m : SmbslowerProbes.Maps) :
    SmbFiring → SmbslowerProbes.Maps
  | .tracepoint f => SmbslowerTracepoints.fire ro m f
  | .midAllocFexit c room mid => midAllocFexit m c room mid
  | .midAllocKretprobe c room mid => midAllocKretprobe m c room mid
  | .midAllocRhel810Kretprobe c room mid => midAllocRhel810Kretprobe m c room mid
  | .midAllocRhel810553134Kretprobe c room mid => midAllocRhel810553134Kretprobe m c room mid
  | .midRelease c ring addr => SmbslowerProbes.probeExit ro m c ring addr

/-- Both tables as one. -/
def smbTable (m : SmbslowerProbes.Maps) : SmbTraceKey ⊕ UInt64 → Option SmbPartialEvent
  | .inl key => m.traceTemp.lookup key
  | .inr addr => m.temp.lookup addr

abbrev SmbOp := RequestTable.Op (SmbTraceKey ⊕ UInt64) SmbPartialEvent

def allocOp (commandOffset midOffset : ℕ) (c : DiagContext) (room : Bool) (mid : MidQEntry) :
    SmbOp :=
  .start false room (.inr mid.addr)
    ⟨mid.read16 commandOffset, c.ktime, mid.read64 midOffset⟩

def SmbFiring.op : SmbFiring → Option SmbOp
  | .tracepoint (.enter c room args) =>
      some (.start true room (.inl args.key) ⟨args.cmd, c.ktime, args.mid⟩)
  | .tracepoint (.done _ _ args) | .tracepoint (.err _ _ args) => some (.finish (.inl args.key))
  | .midAllocFexit c room mid => some (allocOp mid.commandOffset mid.midOffset c room mid)
  | .midAllocKretprobe c room mid =>
      mid.map fun mid => allocOp mid.commandOffset mid.midOffset c room mid
  | .midAllocRhel810Kretprobe c room mid => mid.map (allocOp 124 32 c room)
  | .midAllocRhel810553134Kretprobe c room mid => mid.map (allocOp 40 24 c room)
  | .midRelease _ _ addr => some (.finish (.inr addr))

def smbPasses (m : SmbslowerProbes.Maps) (r : SmbPartialEvent) : Bool :=
  (m.denylist.lookup r.smbcommand).isNone

theorem smbPasses_eq (m : SmbslowerProbes.Maps) (r : SmbPartialEvent) :
    smbPasses m r = !m.denied r.smbcommand := by
  simp [smbPasses, SmbslowerProbes.Maps.denied]

theorem smbTable_enter (m : SmbslowerProbes.Maps) (c : DiagContext) (room : Bool)
    (args : Smb3CmdArgs) : smbTable (traceSmb3CmdEnter m c room args) =
      RequestTable.step (smbPasses m) (smbTable m)
        (.start true room (.inl args.key) ⟨args.cmd, c.ktime, args.mid⟩) := by
  funext k
  simp only [RequestTable.step, smbPasses_eq, traceSmb3CmdEnter]
  cases m.denied args.cmd <;> cases room <;> cases k <;>
    simp [smbTable, HashMap.lookup_insert_eq, Function.update_apply]

theorem smbTable_alloc (commandOffset midOffset : ℕ) (m : SmbslowerProbes.Maps) (c : DiagContext)
    (room : Bool) (mid : MidQEntry) :
    smbTable (midAlloc commandOffset midOffset m c room mid) =
      RequestTable.step (smbPasses m) (smbTable m)
        (allocOp commandOffset midOffset c room mid) := by
  funext k
  simp only [RequestTable.step, allocOp, smbPasses_eq, midAlloc, HashMap.updateNoexist]
  cases m.denied (mid.read16 commandOffset) <;> cases room <;> cases k <;>
    cases hold : m.temp.lookup mid.addr <;>
    simp [smbTable, hold, HashMap.lookup_insert_eq, Function.update_apply]

theorem smbTable_completeTraceEvent (ro : SmbslowerProbes.Rodata) (m : SmbslowerProbes.Maps)
    (c : DiagContext) (ring : Fill) (key : SmbTraceKey) :
    smbTable (completeTraceEvent ro m c ring key) =
      Function.update (smbTable m) (.inl key) none := by
  have htemp : (completeTraceEvent ro m c ring key).temp = m.temp := by
    unfold completeTraceEvent
    split <;> rfl
  funext k
  cases k <;> simp [smbTable, htemp, SmbslowerTracepoints.completeTraceEvent_traceTemp,
    HashMap.lookup_erase_eq, Function.update_apply]

theorem smbTable_probeExit (ro : SmbslowerProbes.Rodata) (m : SmbslowerProbes.Maps)
    (c : DiagContext) (ring : Fill) (addr : UInt64) :
    smbTable (SmbslowerProbes.probeExit ro m c ring addr) =
      Function.update (smbTable m) (.inr addr) none := by
  have hexit : (SmbslowerProbes.probeExit ro m c ring addr).temp = m.temp.erase addr ∧
      (SmbslowerProbes.probeExit ro m c ring addr).traceTemp = m.traceTemp := by
    unfold SmbslowerProbes.probeExit
    split
    next h => exact ⟨(HashMap.erase_eq_self h).symm, rfl⟩
    next => exact ⟨rfl, rfl⟩
  funext k
  cases k <;> simp [smbTable, hexit, HashMap.lookup_erase_eq, Function.update_apply]

theorem midAlloc_denylist (commandOffset midOffset : ℕ) (m : SmbslowerProbes.Maps)
    (c : DiagContext) (room : Bool) (mid : MidQEntry) :
    (midAlloc commandOffset midOffset m c room mid).denylist = m.denylist := by
  simp only [midAlloc]
  split <;> rfl

/-- smbslower in either mode. -/
def smbslower (ro : SmbslowerProbes.Rodata) : SlowTracer where
  maxCommands := maxSmbCommands
  maxCommands_le := by decide
  Key := SmbTraceKey ⊕ UInt64
  Record := SmbPartialEvent
  Maps := SmbslowerProbes.Maps
  Firing := SmbFiring
  fresh := SmbslowerProbes.Maps.fresh
  fire := smbFire ro
  denylist := SmbslowerProbes.Maps.denylist
  table := smbTable
  command := SmbPartialEvent.smbcommand
  op := SmbFiring.op
  denylist_fresh _ := rfl
  denylist_fire m f := by
    cases f with
    | tracepoint f => exact SmbslowerTracepoints.fire_denylist m f
    | midAllocFexit c room mid => exact midAlloc_denylist ..
    | midAllocKretprobe c room mid | midAllocRhel810Kretprobe c room mid
    | midAllocRhel810553134Kretprobe c room mid =>
        cases mid with
        | none => rfl
        | some mid => exact midAlloc_denylist ..
    | midRelease c ring addr =>
        simp only [smbFire, SmbslowerProbes.probeExit]
        split <;> rfl
  table_fresh _ := funext fun k => by
    cases k <;> exact Finmap.lookup_empty _
  table_fire m f := by
    cases f with
    | tracepoint f =>
        cases f with
        | enter c room args => exact smbTable_enter m c room args
        | done c ring args | err c ring args => exact smbTable_completeTraceEvent ..
    | midAllocFexit c room mid => exact smbTable_alloc ..
    | midAllocKretprobe c room mid | midAllocRhel810Kretprobe c room mid
    | midAllocRhel810553134Kretprobe c room mid =>
        cases mid with
        | none => rfl
        | some mid => exact smbTable_alloc ..
    | midRelease c ring addr => exact smbTable_probeExit ..

end Smbslower

section Nfsslower
open NfsslowerProbes

def nfsOp : NfsslowerProbes.Firing → Option (RequestTable.Op UInt64 NfsPartialEvent)
  | .nfs4SetupSequence c room task =>
      some (.start false room task.addr ⟨task.nfscommand, c.ktime⟩)
  | .rpcExitTask _ _ task => some (.finish task.addr)

theorem nfsTable_fire (ro : NfsslowerProbes.Rodata) (m : NfsslowerProbes.Maps)
    (f : NfsslowerProbes.Firing) : (fun k => (fire ro m f).temp.lookup k) = (match nfsOp f with
      | none => fun k => m.temp.lookup k
      | some op => RequestTable.step (fun r => (m.denylist.lookup r.nfscommand).isNone)
          (fun k => m.temp.lookup k) op) := by
  funext k
  cases f with
  | nfs4SetupSequence c room task =>
      have hpasses : (m.denylist.lookup task.nfscommand).isNone = !m.denied task.nfscommand := by
        simp [NfsslowerProbes.Maps.denied]
      simp only [nfsOp, RequestTable.step, hpasses, fire, probeEntry, HashMap.updateNoexist]
      cases m.denied task.nfscommand <;> cases room <;> cases m.temp.lookup task.addr <;>
        simp [HashMap.lookup_insert_eq, Function.update_apply]
  | rpcExitTask c ring task =>
      have hexit : (probeExit ro m c ring task).temp = m.temp.erase task.addr := by
        unfold probeExit
        split
        next h => exact (HashMap.erase_eq_self h).symm
        next => rfl
      simp [nfsOp, RequestTable.step, fire, hexit, HashMap.lookup_erase_eq, Function.update_apply]

def nfsslower (ro : NfsslowerProbes.Rodata) : SlowTracer where
  maxCommands := maxNfsCommands
  maxCommands_le := by decide
  Key := UInt64
  Record := NfsPartialEvent
  Maps := NfsslowerProbes.Maps
  Firing := NfsslowerProbes.Firing
  fresh := NfsslowerProbes.Maps.fresh
  fire := fire ro
  denylist := NfsslowerProbes.Maps.denylist
  table m k := m.temp.lookup k
  command := NfsPartialEvent.nfscommand
  op := nfsOp
  denylist_fresh _ := rfl
  denylist_fire m f := by
    cases f with
    | nfs4SetupSequence c room task =>
        simp only [fire, probeEntry]
        split <;> rfl
    | rpcExitTask c ring task =>
        simp only [fire, probeExit]
        split <;> rfl
  table_fresh _ := funext fun k => Finmap.lookup_empty k
  table_fire m f := by
    cases f <;> exact nfsTable_fire ro m _

end Nfsslower

inductive Tool where
  | smbslower (ro : SmbslowerProbes.Rodata)
  | nfsslower (ro : NfsslowerProbes.Rodata)

def Tool.tracer : Tool → SlowTracer
  | .smbslower ro => SlowCommands.smbslower ro
  | .nfsslower ro => SlowCommands.nfsslower ro

/-- In every run of a tracer that accepted an option, what is recorded of a started request
is what the option asks for exactly when its code is read right or, behind a request of
another command under its key, when it is not wanted at all. -/
theorem recorded_as_wanted_iff (tool : Tool) {option : CmdOption} {memory : Bool}
    {arg : CString} {updates : UInt16 → Bool} {list : HashMap UInt16 UInt8}
    (hload : load tool.tracer.maxCommands option memory arg updates = some list)
    (fs : List tool.tracer.Firing) {f : tool.tracer.Firing} {c : UInt16}
    (hstarts : tool.tracer.Starts f c) :
    (tool.tracer.Recorded list fs f c ↔ Wanted tool.tracer.maxCommands option arg c.toNat) ↔
      (¬ tool.tracer.Occupied list fs f c ∧ ReadRight tool.tracer.maxCommands option arg c.toNat) ∨
      (tool.tracer.Occupied list fs f c ∧
        ¬ Wanted tool.tracer.maxCommands option arg c.toNat) := by
  rw [SlowTracer.recorded_iff hstarts, ← readRight_iff,
    ← load_lookup tool.tracer.maxCommands_le hload c]
  by_cases hoccupied : tool.tracer.Occupied list fs f c
  · simp [hoccupied]
  · simp [hoccupied]

/-- smbslower under `--exclude-cmds=5`, at the start of a request of command 5. -/
theorem recorded_as_wanted_iff_excludeFive :
    ((Tool.smbslower ⟨1000, 256⟩).tracer.Recorded (Finmap.singleton 5 1) []
        (.tracepoint (.enter ⟨7, Buffer.zero 16, 100⟩ true ⟨1, 2, 5, 3⟩)) 5 ↔
      Wanted 20 .excludeCmds (cstr "5") 5) ↔
    (¬ (Tool.smbslower ⟨1000, 256⟩).tracer.Occupied (Finmap.singleton 5 1) []
        (.tracepoint (.enter ⟨7, Buffer.zero 16, 100⟩ true ⟨1, 2, 5, 3⟩)) 5 ∧
      ReadRight 20 .excludeCmds (cstr "5") 5) ∨
    ((Tool.smbslower ⟨1000, 256⟩).tracer.Occupied (Finmap.singleton 5 1) []
        (.tracepoint (.enter ⟨7, Buffer.zero 16, 100⟩ true ⟨1, 2, 5, 3⟩)) 5 ∧
      ¬ Wanted 20 .excludeCmds (cstr "5") 5) := by
  have hload : load 20 .excludeCmds true (cstr "5") (fun _ => true) =
      some (Finmap.singleton 5 1) := by decide +kernel
  exact recorded_as_wanted_iff (.smbslower ⟨1000, 256⟩) hload [] ⟨true, _, _, rfl, rfl⟩

/-- Under `--exclude-cmds=read` smbslower drops the requests of command 0. -/
theorem recorded_as_wanted_fails_excludeRead :
    ¬ ∀ (tool : Tool) (option : CmdOption) (memory : Bool) (arg : CString)
      (updates : UInt16 → Bool) (list : HashMap UInt16 UInt8),
      load tool.tracer.maxCommands option memory arg updates = some list →
      ∀ (fs : List tool.tracer.Firing) (f : tool.tracer.Firing) (c : UInt16),
        tool.tracer.Starts f c →
        (tool.tracer.Recorded list fs f c ↔
          Wanted tool.tracer.maxCommands option arg c.toNat) := by
  intro h
  have hload : load 20 .excludeCmds true (cstr "read") (fun _ => true) =
      some (Finmap.singleton 0 1) := by decide +kernel
  have hstarts : (Tool.smbslower ⟨1000, 256⟩).tracer.Starts
      (.tracepoint (.enter ⟨7, Buffer.zero 16, 100⟩ true ⟨1, 2, 0, 3⟩)) 0 := ⟨true, _, _, rfl, rfl⟩
  have hrecorded := h (.smbslower ⟨1000, 256⟩) _ _ _ _ _ hload [] _ _ hstarts
  rw [SlowTracer.recorded_iff hstarts] at hrecorded
  have hwanted : ¬ Named 20 (cstr "read") 0 := by decide +kernel
  exact absurd (hrecorded.mpr hwanted).1 (by decide +kernel)

end MonitoringTools.SlowCommands
