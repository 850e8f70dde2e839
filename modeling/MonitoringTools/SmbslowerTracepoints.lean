import MonitoringTools.SmbslowerProbes
import Mathlib.Data.List.Induction

/-!
# Which completions of smbslower's tracepoints emit

The record table of tracepoint mode is followed over arbitrary sequences of
starts and completions: unanswered requests, reused keys and denied commands
in any mixture. A denied start leaves the table alone, so a record that an
unanswered request left behind survives it and answers the next completion.
-/
namespace MonitoringTools.SmbslowerTracepoints
open BpfHelpers DiagEvents SmbslowerProbes

inductive Firing where
  | enter (c : DiagContext) (room : Bool) (args : Smb3CmdArgs)
  | done (c : DiagContext) (ring : Fill) (args : Smb3CmdArgs)
  | err (c : DiagContext) (ring : Fill) (args : Smb3CmdArgs)
  deriving DecidableEq, Repr

def fire (ro : Rodata) (m : Maps) : Firing → Maps
  | .enter c room args => traceSmb3CmdEnter m c room args
  | .done c ring args => traceSmb3CmdDone ro m c ring args
  | .err c ring args => traceSmb3CmdErr ro m c ring args

def reached (ro : Rodata) (denylist : HashMap UInt16 UInt8) (fs : List Firing) : Maps :=
  fs.foldl (fire ro) (Maps.fresh denylist)

def Firing.time : Firing → UInt64
  | .enter c _ _ | .done c _ _ | .err c _ _ => c.ktime

def Firing.room : Firing → Bool
  | .enter _ room _ => room
  | .done _ ring _ | .err _ ring _ => ring.room

/-- The most recent start with a key and no completion since, in a history
that stands newest first. Only starts of interest count. -/
def pending (interest : UInt16 → Bool) (k : SmbTraceKey) : List Firing → Option SmbPartialEvent
  | [] => none
  | .enter c _ args :: fs =>
      if args.key = k ∧ interest args.cmd = true then some ⟨args.cmd, c.ktime, args.mid⟩
      else pending interest k fs
  | .done _ _ args :: fs | .err _ _ args :: fs =>
      if args.key = k then none else pending interest k fs

variable (ro : Rodata) (denylist : HashMap UInt16 UInt8)

def allowed (command : UInt16) : Bool := (denylist.lookup command).isNone

/-- What the latest start of any command asks of a completion. -/
def expected (fs : List Firing) (c : DiagContext) (k : SmbTraceKey) : List Event :=
  match pending (fun _ => true) k fs.reverse with
  | some start =>
      if allowed denylist start.smbcommand = true ∧
          ro.minLatNs.toNat ≤ c.ktime.toNat - start.startNs.toNat then
        [eventOf c start]
      else []
  | none => []

/-- What a completion adds to the ring after a run. -/
def emitted (fs : List Firing) (f : Firing) : List Event :=
  (((fire ro (reached ro denylist fs) f).submissions.drop
    (reached ro denylist fs).submissions.length)).map Submission.event

/-- The latest start is denied, and an allowed one that it hides has been
waiting long enough. -/
def StaleRecord (fs : List Firing) (c : DiagContext) (k : SmbTraceKey) : Prop :=
  ∃ start ∈ pending (fun _ => true) k fs.reverse, allowed denylist start.smbcommand = false ∧
    ∃ stale ∈ pending (allowed denylist) k fs.reverse,
      ro.minLatNs.toNat ≤ c.ktime.toNat - stale.startNs.toNat

variable {ro denylist}

theorem fire_denylist (m : Maps) (f : Firing) : (fire ro m f).denylist = m.denylist := by
  cases f with
  | enter c room args =>
      simp only [fire, traceSmb3CmdEnter]
      split <;> rfl
  | done c ring args | err c ring args =>
      simp only [fire, traceSmb3CmdDone, traceSmb3CmdErr, completeTraceEvent]
      split <;> rfl

theorem reached_concat (fs : List Firing) (f : Firing) :
    reached ro denylist (fs ++ [f]) = fire ro (reached ro denylist fs) f := List.foldl_concat ..

theorem reached_denylist (fs : List Firing) : (reached ro denylist fs).denylist = denylist := by
  induction fs using List.reverseRecOn with
  | nil => rfl
  | append_singleton fs f ih => rwa [reached_concat, fire_denylist]

theorem completeTraceEvent_traceTemp (m : Maps) (c : DiagContext) (ring : Fill) (k : SmbTraceKey) :
    (completeTraceEvent ro m c ring k).traceTemp = m.traceTemp.erase k := by
  unfold completeTraceEvent
  split
  next h => exact (HashMap.erase_eq_self h).symm
  next => rfl

theorem traceTemp_reached {fs : List Firing} (hroom : ∀ f ∈ fs, f.room = true) (k : SmbTraceKey) :
    (reached ro denylist fs).traceTemp.lookup k = pending (allowed denylist) k fs.reverse := by
  induction fs using List.reverseRecOn with
  | nil => exact Finmap.lookup_empty k
  | append_singleton fs f ih =>
      have ih := ih fun g hg => hroom g (List.mem_append_left _ hg)
      have hf := hroom f (by simp)
      rw [reached_concat, List.reverse_concat]
      cases f with
      | enter c room args =>
          have hroom : room = true := hf
          have hdenied : (reached ro denylist fs).denied args.cmd = !allowed denylist args.cmd := by
            simp [Maps.denied, reached_denylist, allowed]
          simp only [fire, traceSmb3CmdEnter, hdenied, pending]
          cases allowed denylist args.cmd with
          | false => simpa using ih
          | true =>
              simp only [Bool.not_true, Bool.false_eq_true, if_false, hroom, HashMap.update_true,
                HashMap.lookup_insert_eq, and_true, eq_comm (a := k)]
              exact if_congr Iff.rfl rfl ih
      | done c ring args | err c ring args =>
          simp only [fire, traceSmb3CmdDone, traceSmb3CmdErr, completeTraceEvent_traceTemp, pending,
            HashMap.lookup_erase_eq, eq_comm (a := k)]
          exact if_congr Iff.rfl rfl ih

theorem pending_mem {interest : UInt16 → Bool} {k : SmbTraceKey} {fs : List Firing}
    {start : SmbPartialEvent} (h : pending interest k fs = some start) :
    interest start.smbcommand = true ∧ ∃ f ∈ fs, f.time = start.startNs := by
  induction fs with
  | nil => cases h
  | cons f fs ih =>
      have later : pending interest k fs = some start →
          interest start.smbcommand = true ∧ ∃ g ∈ f :: fs, g.time = start.startNs := by
        intro hfs
        obtain ⟨hint, g, hg, ht⟩ := ih hfs
        exact ⟨hint, g, List.mem_cons_of_mem _ hg, ht⟩
      cases f with
      | enter c room args =>
          simp only [pending] at h
          split at h
          next hkey =>
            cases h
            exact ⟨hkey.2, _, List.mem_cons_self, rfl⟩
          next => exact later h
      | done c ring args | err c ring args =>
          obtain ⟨-, h⟩ := Option.ite_none_left_eq_some.mp h
          exact later h

/-- The latest start and the latest allowed start differ only when the former
is denied. -/
theorem pending_allowed_of_pending {k : SmbTraceKey} {fs : List Firing} :
    match pending (fun _ => true) k fs with
    | some start =>
        allowed denylist start.smbcommand = true → pending (allowed denylist) k fs = some start
    | none => pending (allowed denylist) k fs = none := by
  induction fs with
  | nil => rfl
  | cons f fs ih =>
      cases f with
      | enter c room args =>
          by_cases hkey : args.key = k
          · simp +contextual [pending, hkey]
          · simpa [pending, hkey] using ih
      | done c ring args | err c ring args =>
          by_cases hkey : args.key = k
          · simp [pending, hkey]
          · simpa [pending, hkey] using ih

/-- Both completion probes take the latest allowed start and report it when it
is slow. -/
theorem emitted_eq {fs : List Firing} (hroom : ∀ g ∈ fs, g.room = true) {f : Firing}
    {c : DiagContext} {ring : Fill} {args : Smb3CmdArgs}
    (hf : f = .done c ring args ∨ f = .err c ring args) (hring : ring.room = true)
    (htime : ∀ g ∈ fs, g.time.toNat ≤ c.ktime.toNat) :
    emitted ro denylist fs f = match pending (allowed denylist) args.key fs.reverse with
      | some start =>
          if ro.minLatNs.toNat ≤ c.ktime.toNat - start.startNs.toNat then [eventOf c start] else []
      | none => [] := by
  have hfire : fire ro (reached ro denylist fs) f =
      completeTraceEvent ro (reached ro denylist fs) c ring args.key := by
    rcases hf with rfl | rfl <;> rfl
  rw [emitted, hfire, completeTraceEvent, traceTemp_reached hroom]
  cases hstart : pending (allowed denylist) args.key fs.reverse with
  | none => simp
  | some start =>
      obtain ⟨-, g, hg, hgt⟩ := pending_mem hstart
      have hearlier : start.startNs.toNat ≤ c.ktime.toNat := by
        rw [← hgt]
        exact htime g (List.mem_reverse.mp hg)
      have hlatency : ro.minLatNs ≤ c.ktime - start.startNs ↔
          ro.minLatNs.toNat ≤ c.ktime.toNat - start.startNs.toNat := by
        rw [UInt64.le_iff_toNat_le,
          UInt64.toNat_sub_of_le _ _ (UInt64.le_iff_toNat_le.mpr hearlier)]
      have hevent : (completion ro c ring start).map Submission.event = _ := completion_event hring
      simp only [List.drop_left, ← Option.toList_map, hevent, hlatency]
      split <;> rfl

/-- After every sequence of starts and completions with room, and with no time
running backwards, a completion does what the latest start asks exactly when
that start does not hide a stale record. -/
theorem emitted_iff_not_stale {fs : List Firing} (hroom : ∀ g ∈ fs, g.room = true) {f : Firing}
    {c : DiagContext} {ring : Fill} {args : Smb3CmdArgs}
    (hf : f = .done c ring args ∨ f = .err c ring args) (hring : ring.room = true)
    (htime : ∀ g ∈ fs, g.time.toNat ≤ c.ktime.toNat) :
    emitted ro denylist fs f = expected ro denylist fs c args.key ↔
      ¬ StaleRecord ro denylist fs c args.key := by
  rw [emitted_eq hroom hf hring htime, expected, StaleRecord]
  have hpending := @pending_allowed_of_pending denylist args.key fs.reverse
  cases hlatest : pending (fun _ => true) args.key fs.reverse with
  | none =>
      rw [hlatest] at hpending
      simp [hpending]
  | some start =>
      rw [hlatest] at hpending
      cases hallowed : allowed denylist start.smbcommand with
      | true => simp [hpending hallowed, hallowed]
      | false =>
          cases pending (allowed denylist) args.key fs.reverse with
          | none => simp [hallowed]
          | some stale => simp [hallowed]

def requestKey : SmbTraceKey := ⟨1, 2, 3⟩

def request (command : UInt16) : Smb3CmdArgs := ⟨1, 2, command, 3⟩

def firedAt (time : UInt64) : DiagContext := ⟨7, Buffer.zero 16, time⟩

/-- A slow request and its answer. -/
theorem emitted_iff_not_stale_slowRead :
    emitted ⟨1000, 256⟩ ∅ [.enter (firedAt 100) true (request 5)]
        (.done (firedAt 2000) ⟨true, 0, 0⟩ (request 8)) =
      expected ⟨1000, 256⟩ ∅ [.enter (firedAt 100) true (request 5)] (firedAt 2000) requestKey ↔
    ¬ StaleRecord ⟨1000, 256⟩ ∅ [.enter (firedAt 100) true (request 5)] (firedAt 2000)
      requestKey :=
  emitted_iff_not_stale (by decide) (.inl rfl) rfl (by decide)

/-- Command 5 stays unanswered, command 8 reuses its key and is denied: the
completion of command 8 reports command 5. -/
theorem emitted_fails_reusedKey :
    ¬ ∀ (ro : Rodata) (denylist : HashMap UInt16 UInt8) (fs : List Firing) (f : Firing)
      (c : DiagContext) (ring : Fill) (args : Smb3CmdArgs),
      (∀ g ∈ fs, g.room = true) → (f = .done c ring args ∨ f = .err c ring args) →
      ring.room = true → (∀ g ∈ fs, g.time.toNat ≤ c.ktime.toNat) →
      emitted ro denylist fs f = expected ro denylist fs c args.key := by
  intro h
  have hreported := h ⟨1000, 256⟩ (Finmap.singleton 8 1)
    [.enter (firedAt 100) true (request 5), .enter (firedAt 200) true (request 8)]
    (.done (firedAt 2000) ⟨true, 0, 0⟩ (request 8)) _ _ _ (by decide) (.inl rfl) rfl (by decide)
  exact absurd hreported (by decide +kernel)

end MonitoringTools.SmbslowerTracepoints
