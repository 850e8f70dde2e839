import Mathlib.Data.List.Induction
import MonitoringTools.DiagEvents

/-!
# The error tracers and their wakeup size

nfsiosnoop and smbiosnoop emit failed responses that pass two allowlists.
Unlike the slow tracers they compute the notification flags for the reserve
call as well, where the kernel accepts none.
-/
namespace MonitoringTools.ErrorTracers
open BpfHelpers DiagEvents

/-- The allowlists of one tool, `E` being the type of its error keys. -/
structure Filters (E : Type) where
  filterErrors : UInt8
  filterCmds : UInt8
  allowlistErrors : HashMap E UInt8
  allowlistCmds : HashMap UInt16 UInt8

deriving instance DecidableEq for Filters

def Filters.pass {E : Type} [DecidableEq E] (f : Filters E) (error : E) (command : UInt16) : Bool :=
  (f.filterErrors == 0 || (f.allowlistErrors.lookup error).isSome) &&
    (f.filterCmds == 0 || (f.allowlistCmds.lookup command).isSome)

/-- The fields of an RPC task that the probe reads. `rqXid` is as stored, in
network order. -/
structure RpcTask where
  tkStatus : Int32
  pStatidx : UInt32
  rqXid : UInt32
  deriving DecidableEq, Repr

structure Smb3CmdErrArgs where
  cmd : UInt16
  mid : UInt64
  status : UInt32
  deriving DecidableEq, Repr

/-- The magnitude of a task status. -/
def RpcTask.retval (task : RpcTask) : Int32 :=
  if task.tkStatus < 0 then -task.tkStatus else task.tkStatus

def nfsEvent (c : DiagContext) (command : UInt16) (xid : UInt32) (retval : Int32) : Event :=
  ⟨c.pid, command, nfsiosnoop, c.ktime, xid.toUInt64, .retval retval, c.comm⟩

def smbEvent (c : DiagContext) (args : Smb3CmdErrArgs) : Event :=
  ⟨c.pid, args.cmd, smbiosnoop, c.ktime, args.mid, .retval args.status.toInt32, c.comm⟩

/-- `probe_entry` of nfsiosnoop. -/
def probeEntry (f : Filters Int32) (w : Int32) (c : DiagContext) (ring : Fill) (task : RpcTask) :
    Option Submission :=
  let nfscommand := task.pStatidx.toUInt16
  if task.tkStatus = 0 then none
  else if f.pass task.retval nfscommand then
    submitEvent (getFlags w ring.availAtReserve) w ring
      (nfsEvent c nfscommand (ntohl task.rqXid) task.retval)
  else none

/-- The allowlist lookup reads the first four bytes of the error. -/
def emitXdrStatus (f : Filters Int32) (w : Int32) (c : DiagContext) (ring : Fill) (xid : UInt32)
    (command : UInt16) (error : UInt64) : Option Submission :=
  if error = 0 then none
  else if f.pass error.toUInt32.toInt32 command then
    submitEvent (getFlags w ring.availAtReserve) w ring
      (nfsEvent c command xid error.toUInt32.toInt32)
  else none

def traceSmb3CmdErr (f : Filters UInt32) (w : Int32) (c : DiagContext) (ring : Fill)
    (args : Smb3CmdErrArgs) : Option Submission :=
  if args.status = 0 then none
  else if f.pass args.status args.cmd then
    submitEvent (getFlags w ring.availAtReserve) w ring (smbEvent c args)
  else none

/-- The loop of `update_allowlist_cmds` and `update_allowlist_errors`. An update
of the map may fail. -/
def allow {K : Type} [DecidableEq K] (updates : K → Bool) (codes : List K) :
    Option (HashMap K UInt8) :=
  codes.foldlM (fun m code => if updates code then some (m.insert code 1) else none) ∅

theorem allow_lookup {K : Type} [DecidableEq K] {updates : K → Bool} {codes : List K}
    {m : HashMap K UInt8} (h : allow updates codes = some m) (k : K) :
    (m.lookup k).isSome = true ↔ k ∈ codes := by
  induction codes using List.reverseRecOn generalizing m with
  | nil =>
      cases h
      simp
  | append_singleton codes code ih =>
      rw [allow, List.foldlM_append, Option.bind_eq_bind, Option.bind_eq_some_iff] at h
      obtain ⟨before, hbefore, hlast⟩ := h
      simp only [List.foldlM_cons, List.foldlM_nil, Option.bind_eq_bind,
        Option.bind_eq_some_iff, Option.ite_none_right_eq_some, Option.some.injEq] at hlast
      obtain ⟨_, ⟨-, rfl⟩, ⟨⟩⟩ := hlast
      rw [HashMap.lookup_insert_eq, List.mem_append, List.mem_singleton, ← ih hbefore]
      by_cases hk : k = code
      · simp [hk]
      · simp [hk]

inductive Response where
  | rpcExitTask (c : DiagContext) (task : RpcTask)
  | nfs4XdrStatus (c : DiagContext) (xid op : UInt32) (error : UInt64)
  | smb3CmdErr (c : DiagContext) (args : Smb3CmdErrArgs)
  deriving DecidableEq, Repr

structure Config where
  nfs : Filters Int32
  smb : Filters UInt32

def handle (cfg : Config) (w : Int32) (r : Response × Fill) : Option Submission :=
  match r with
  | (.rpcExitTask c task, ring) => probeEntry cfg.nfs w c ring task
  | (.nfs4XdrStatus c xid op error, ring) => emitXdrStatus cfg.nfs w c ring xid op.toUInt16 error
  | (.smb3CmdErr c args, ring) => traceSmb3CmdErr cfg.smb w c ring args

/-- A failed response that passes the allowlists, and the event it stands for. -/
def selected (cfg : Config) : Response → Option Event
  | .rpcExitTask c task =>
      if task.tkStatus ≠ 0 ∧ cfg.nfs.pass task.retval task.pStatidx.toUInt16 then
        some (nfsEvent c task.pStatidx.toUInt16 (ntohl task.rqXid) task.retval)
      else none
  | .nfs4XdrStatus c xid op error =>
      if error ≠ 0 ∧ cfg.nfs.pass error.toUInt32.toInt32 op.toUInt16 then
        some (nfsEvent c op.toUInt16 xid error.toUInt32.toInt32)
      else none
  | .smb3CmdErr c args =>
      if args.status ≠ 0 ∧ cfg.smb.pass args.status args.cmd then some (smbEvent c args) else none

theorem handle_eq (cfg : Config) (w : Int32) (r : Response × Fill) :
    handle cfg w r =
      (selected cfg r.1).bind (submitEvent (getFlags w r.2.availAtReserve) w r.2) := by
  obtain ⟨response, ring⟩ := r
  cases response <;>
    simp only [handle, selected, probeEntry, emitXdrStatus, traceSmb3CmdErr, ite_and, ne_eq] <;>
    split_ifs <;> rfl

/-- The events submitted over a sequence of responses, their flags aside. -/
def submitted (cfg : Config) (w : Int32) (rs : List (Response × Fill)) : List Event :=
  (rs.filterMap (handle cfg w)).map Submission.event

theorem handle_event {cfg : Config} {w : Int32} {r : Response × Fill} (hroom : r.2.room = true) :
    (handle cfg w r).map Submission.event = if w = 0 then selected cfg r.1 else none := by
  rw [handle_eq]
  unfold submitEvent
  cases selected cfg r.1 with
  | none => simp
  | some e =>
      simp only [Option.bind_some, reserve_getFlags, hroom, Bool.and_true, decide_eq_true_eq]
      split <;> rfl

/-- With room, a tracer submits what it selects or nothing at all. -/
theorem submitted_eq {cfg : Config} {w : Int32} {rs : List (Response × Fill)}
    (hroom : ∀ r ∈ rs, r.2.room = true) :
    submitted cfg w rs = if w = 0 then (rs.map Prod.fst).filterMap (selected cfg) else [] := by
  have hhandle : (rs.filterMap fun r => (handle cfg w r).map Submission.event) =
      rs.filterMap fun r => if w = 0 then selected cfg r.1 else none :=
    List.filterMap_congr fun r hr => handle_event (hroom r hr)
  rw [submitted, List.map_filterMap, hhandle, List.filterMap_map]
  split
  · rfl
  · exact List.filterMap_eq_nil_iff.mpr fun _ _ => rfl

/-- Over the same responses, whatever the ring holds in between, two wakeup
sizes submit the same events exactly when both or neither are zero, or when
nothing is selected. -/
theorem submitted_eq_iff {cfg : Config} {w₁ w₂ : Int32} {rs₁ rs₂ : List (Response × Fill)}
    (hsame : rs₁.map Prod.fst = rs₂.map Prod.fst) (hroom₁ : ∀ r ∈ rs₁, r.2.room = true)
    (hroom₂ : ∀ r ∈ rs₂, r.2.room = true) :
    submitted cfg w₁ rs₁ = submitted cfg w₂ rs₂ ↔
      ((w₁ = 0 ↔ w₂ = 0) ∨ ∀ r ∈ rs₁, selected cfg r.1 = none) := by
  have hnone : (rs₁.map Prod.fst).filterMap (selected cfg) = [] ↔
      ∀ r ∈ rs₁, selected cfg r.1 = none := by
    rw [List.filterMap_eq_nil_iff, List.forall_mem_map]
  rw [submitted_eq hroom₁, submitted_eq hroom₂, ← hsame, ← hnone]
  by_cases h₁ : w₁ = 0 <;> by_cases h₂ : w₂ = 0
  · simp [h₁, h₂]
  · simp [h₁, h₂]
  · simp [h₁, h₂]
  · simp [h₁, h₂]

/-- nfsiosnoop under `-c 4` and smbiosnoop under `-c 5`. -/
def oneCommand : Config := ⟨⟨0, 1, ∅, Finmap.singleton 4 1⟩, ⟨0, 1, ∅, Finmap.singleton 5 1⟩⟩

/-- One response of each handler, with room and an empty ring throughout. -/
def threeErrors : List (Response × Fill) :=
  let c : DiagContext := ⟨7, Buffer.zero 16, 1000⟩
  [(.smb3CmdErr c ⟨5, 1, 0xc0000034⟩, ⟨true, 0, 0⟩),
    (.rpcExitTask c ⟨-13, 4, 0x01000000⟩, ⟨true, 0, 0⟩),
    (.nfs4XdrStatus c 1 4 10025, ⟨true, 0, 0⟩)]

theorem submitted_eq_iff_threeErrors :
    submitted oneCommand 64 threeErrors = submitted oneCommand 256 threeErrors ↔
      (((64 : Int32) = 0 ↔ (256 : Int32) = 0) ∨
        ∀ r ∈ threeErrors, selected oneCommand r.1 = none) :=
  submitted_eq_iff rfl (by decide) (by decide)

/-- Under a wakeup size of 256 the responses that size zero submits are lost. -/
theorem submitted_eq_fails_threeErrors :
    ¬ ∀ (cfg : Config) (w₁ w₂ : Int32) (rs₁ rs₂ : List (Response × Fill)),
      rs₁.map Prod.fst = rs₂.map Prod.fst → (∀ r ∈ rs₁, r.2.room = true) →
      (∀ r ∈ rs₂, r.2.room = true) → submitted cfg w₁ rs₁ = submitted cfg w₂ rs₂ := by
  intro h
  have hsame := h oneCommand 0 256 threeErrors threeErrors rfl (by decide) (by decide)
  exact absurd hsame (by decide +kernel)

end MonitoringTools.ErrorTracers
