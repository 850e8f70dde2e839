import MonitoringTools.NfsslowerProbes
import MonitoringTools.Runs

/-!
# The nfsslower probes on several processors

Every call of a helper and every read through a looked-up reference is a step of
its own, and the steps of probes on different processors interleave. The table of
started requests is preallocated: a lookup answers with the slot of a record, a
deletion frees the slot at once, and the next update on any processor may fill it
again. The exit probe reads the start time before it deletes its record and the
command after that.

The serial number of a record is ghost data: it names the update that wrote it.
-/
namespace MonitoringTools.NfsslowerInterleaving
open BpfHelpers DiagEvents NfsslowerProbes Runs

/-- The content of a slot, which survives its deletion. -/
structure Slot where
  record : NfsPartialEvent
  serial : ℕ
  deriving DecidableEq, Repr

/-- Where a probe stands: what it knows, and which step is next. -/
inductive Phase where
  /-- Before the lookup in the denylist. -/
  | entering (c : DiagContext) (room : Bool) (task : RpcTask)
  /-- Before the update. -/
  | storing (c : DiagContext) (room : Bool) (task : RpcTask)
  /-- Before the lookup of the record. -/
  | exiting (c : DiagContext) (ring : Fill) (task : RpcTask)
  /-- Before the read of the start time. -/
  | found (c : DiagContext) (ring : Fill) (task : RpcTask) (slot : ℕ)
  /-- Before the deletion. -/
  | timed (c : DiagContext) (ring : Fill) (task : RpcTask) (slot : ℕ) (latency : UInt64)
      (serial : ℕ)
  /-- Before the reservation. -/
  | deleted (c : DiagContext) (ring : Fill) (task : RpcTask) (slot : ℕ) (latency : UInt64)
      (serial : ℕ)
  /-- Before the read of the command. -/
  | reserved (c : DiagContext) (ring : Fill) (task : RpcTask) (slot : ℕ) (latency : UInt64)
      (serial : ℕ)
  /-- Before the submission. -/
  | filled (ring : Fill) (task : RpcTask) (event : Event) (serial : ℕ)
  deriving DecidableEq, Repr

def Phase.task : Phase → RpcTask
  | .entering _ _ task | .storing _ _ task | .exiting _ _ task | .found _ _ task _
  | .timed _ _ task _ _ _ | .deleted _ _ task _ _ _ | .reserved _ _ task _ _ _
  | .filled _ task _ _ => task

def Phase.start : Firing → Phase
  | .nfs4SetupSequence c room task => .entering c room task
  | .rpcExitTask c ring task => .exiting c ring task

/-- The memory of the program and the probes running on the processors. Every
submission stands beside the serial number of the record whose start time gave its
latency. -/
structure State where
  denylist : HashMap UInt16 UInt8
  index : HashMap UInt64 ℕ
  slots : ℕ → Slot
  recorded : List NfsPartialEvent
  submissions : List (Submission × ℕ)
  running : HashMap ℕ Phase

def State.fresh (denylist : HashMap UInt16 UInt8) : State :=
  ⟨denylist, ∅, fun _ => ⟨⟨0, 0⟩, 0⟩, [], [], ∅⟩

namespace State

def denied (s : State) (command : UInt16) : Bool := (s.denylist.lookup command).isSome

/-- A key refers to the slot. -/
def Used (s : State) (slot : ℕ) : Prop := ∃ key ∈ s.index.keys, s.index.lookup key = some slot

instance (s : State) (slot : ℕ) : Decidable (s.Used slot) :=
  inferInstanceAs (Decidable (∃ key ∈ s.index.keys, _))

/-- A probe for the task runs on some processor. -/
def Busy (s : State) (task : RpcTask) : Prop :=
  ∃ cpu ∈ s.running.keys, ∃ p ∈ s.running.lookup cpu, p.task.addr = task.addr

instance (s : State) (task : RpcTask) : Decidable (s.Busy task) :=
  inferInstanceAs (Decidable (∃ cpu ∈ s.running.keys, ∃ p ∈ s.running.lookup cpu, _))

def goto (s : State) (cpu : ℕ) (p : Phase) : State := {s with running := s.running.insert cpu p}

def finish (s : State) (cpu : ℕ) : State := {s with running := s.running.erase cpu}

/-- Write a record into a slot and let the key refer to it. -/
def store (s : State) (slot : ℕ) (key : UInt64) (record : NfsPartialEvent) : State :=
  {s with
    index := s.index.insert key slot
    slots := Function.update s.slots slot ⟨record, s.recorded.length⟩
    recorded := s.recorded ++ [record]}

def delete (s : State) (key : UInt64) : State := {s with index := s.index.erase key}

def submit (s : State) (submission : Submission) (serial : ℕ) : State :=
  {s with submissions := s.submissions ++ [(submission, serial)]}

end State

/-- The event that an exit probe fills in. -/
def eventWith (c : DiagContext) (task : RpcTask) (latency : UInt64) (command : UInt16) : Event where
  pid := c.pid
  command := command
  tool := nfsslower
  cmdEndTimeNs := c.ktime
  rqstId := (ntohl task.rqXid).toUInt64
  metric := .latencyNs latency
  task := c.comm

/-- One step of the probe on a processor. `slot` is the free slot that an update
takes, if it takes one. -/
def advance (ro : Rodata) (s : State) (cpu slot : ℕ) : Phase → Option State
  | .entering c room task =>
      if s.denied task.nfscommand then some (s.finish cpu)
      else some (s.goto cpu (.storing c room task))
  | .storing c room task =>
      if (s.index.lookup task.addr).isSome ∨ room = false then some (s.finish cpu)
      else if s.Used slot then none
      else some ((s.store slot task.addr ⟨task.nfscommand, c.ktime⟩).finish cpu)
  | .exiting c ring task =>
      match s.index.lookup task.addr with
      | none => some (s.finish cpu)
      | some found => some (s.goto cpu (.found c ring task found))
  | .found c ring task found =>
      let latency := c.ktime - (s.slots found).record.startNs
      some (s.goto cpu (.timed c ring task found latency (s.slots found).serial))
  | .timed c ring task found latency serial =>
      let s := s.delete task.addr
      if latency < ro.minLatNs then some (s.finish cpu)
      else some (s.goto cpu (.deleted c ring task found latency serial))
  | .deleted c ring task found latency serial =>
      if reserve 0 ring.room then some (s.goto cpu (.reserved c ring task found latency serial))
      else some (s.finish cpu)
  | .reserved c ring task found latency serial =>
      let event := eventWith c task latency (s.slots found).record.nfscommand
      some (s.goto cpu (.filled ring task event serial))
  | .filled ring _ event serial =>
      let flags := getFlags ro.wakeupDataSize ring.availAtSubmit
      some ((s.submit ⟨event, flags⟩ serial).finish cpu)

inductive Move where
  | start (cpu : ℕ) (probe : Firing)
  | advance (cpu slot : ℕ)
  deriving DecidableEq, Repr

/-- A probe starts on an idle processor, while none runs for its task elsewhere. -/
def step (ro : Rodata) (s : State) : Move → Option State
  | .start cpu probe =>
      if (s.running.lookup cpu).isSome ∨ s.Busy (Phase.start probe).task then none
      else some (s.goto cpu (Phase.start probe))
  | .advance cpu slot => (s.running.lookup cpu).bind (advance ro s cpu slot)

/-- The event tells the command of the record with the serial number, and its
latency counts from the start time of that record. -/
def Integral (s : State) (event : Event) (serial : ℕ) : Prop :=
  ∃ r, s.recorded[serial]? = some r ∧ event.command = r.nfscommand ∧
    event.metric = .latencyNs (event.cmdEndTimeNs - r.startNs)

/-- The slot whose command a probe will still read after it deleted the record. -/
def Phase.awaits : Phase → Option ℕ
  | .deleted _ ring _ slot _ _ | .reserved _ ring _ slot _ _ =>
      if ring.room then some slot else none
  | _ => none

/-- The task whose record a probe is about to store. -/
def Phase.stores : Phase → Option RpcTask
  | .storing _ true task => some task
  | _ => none

/-- No update writes another command into a slot that a probe on some processor has
deleted and will still read. -/
def NotOverwritten (s : State) : Move → Prop
  | .start _ _ => True
  | .advance cpu slot => ∀ writer ∈ s.running.lookup cpu, ∀ task ∈ writer.stores,
      s.index.lookup task.addr = none → ∀ reader ∈ s.running.keys,
        ∀ p ∈ s.running.lookup reader, p.awaits = some slot →
          (s.slots slot).record.nfscommand = task.nfscommand

instance (s : State) : DecidablePred (NotOverwritten s)
  | .start _ _ => .isTrue trivial
  | .advance cpu _ => inferInstanceAs (Decidable (∀ writer ∈ s.running.lookup cpu, _))

/-- What the memory and the knowledge of a probe say about each other. -/
def Consistent (s : State) : Phase → Prop
  | .entering .. | .storing .. | .exiting .. => True
  | .found _ _ task slot => s.index.lookup task.addr = some slot
  | .timed c _ task slot latency serial => s.index.lookup task.addr = some slot ∧
      (s.slots slot).serial = serial ∧ latency = c.ktime - (s.slots slot).record.startNs
  | .deleted c ring _ slot latency serial => ∃ r, s.recorded[serial]? = some r ∧
      latency = c.ktime - r.startNs ∧
      (ring.room = true → (s.slots slot).record.nfscommand = r.nfscommand)
  | .reserved c ring _ slot latency serial => ring.room = true ∧ ∃ r,
      s.recorded[serial]? = some r ∧ latency = c.ktime - r.startNs ∧
      (s.slots slot).record.nfscommand = r.nfscommand
  | .filled _ _ event serial => Integral s event serial

/-- Keys refer to slots of their own that hold recorded requests, and every
submission is integral. -/
structure Sound (s : State) : Prop where
  recorded : ∀ key slot, s.index.lookup key = some slot →
    s.recorded[(s.slots slot).serial]? = some (s.slots slot).record
  injective : ∀ key key' slot, s.index.lookup key = some slot →
    s.index.lookup key' = some slot → key = key'
  submitted : ∀ e ∈ s.submissions, Integral s e.1.event e.2

structure Others (s : State) (cpu : ℕ) (addr : UInt64) : Prop where
  consistent : ∀ other p, other ≠ cpu → s.running.lookup other = some p → Consistent s p
  addr_ne : ∀ other p, other ≠ cpu → s.running.lookup other = some p → p.task.addr ≠ addr
  apart : ∀ other other' p p', other ≠ cpu → other' ≠ cpu → s.running.lookup other = some p →
    s.running.lookup other' = some p' → p.task.addr = p'.task.addr → other = other'

structure Inv (s : State) : Prop where
  sound : Sound s
  consistent : ∀ cpu p, s.running.lookup cpu = some p → Consistent s p
  apart : ∀ cpu cpu' p p', s.running.lookup cpu = some p → s.running.lookup cpu' = some p' →
    p.task.addr = p'.task.addr → cpu = cpu'

theorem Inv.others {s : State} (h : Inv s) {cpu : ℕ} {p : Phase}
    (hp : s.running.lookup cpu = some p) : Others s cpu p.task.addr where
  consistent other q _ hq := h.consistent other q hq
  addr_ne other q hne hq haddr := hne (h.apart other cpu q p hq hp haddr)
  apart other other' q q' _ _ hq hq' haddr := h.apart other other' q q' hq hq' haddr

theorem inv_goto {s : State} (hs : Sound s) {cpu : ℕ} {p : Phase} (h : Others s cpu p.task.addr)
    (hp : Consistent s p) : Inv (s.goto cpu p) where
  sound := ⟨hs.recorded, hs.injective, hs.submitted⟩
  consistent other q hq := by
    simp only [State.goto, HashMap.lookup_insert_eq] at hq
    split at hq
    next =>
        cases hq
        exact hp
    next hne => exact h.consistent other q hne hq
  apart other other' q q' hq hq' haddr := by
    simp only [State.goto, HashMap.lookup_insert_eq] at hq hq'
    split at hq
    next heq =>
        cases hq
        split at hq'
        next heq' => rw [heq, heq']
        next hne' => exact absurd haddr.symm (h.addr_ne other' q' hne' hq')
    next hne =>
        split at hq'
        next heq' =>
            cases hq'
            exact absurd haddr (h.addr_ne other q hne hq)
        next hne' => exact h.apart other other' q q' hne hne' hq hq' haddr

theorem inv_finish {s : State} (hs : Sound s) {cpu : ℕ} {addr : UInt64} (h : Others s cpu addr) :
    Inv (s.finish cpu) where
  sound := ⟨hs.recorded, hs.injective, hs.submitted⟩
  consistent other q hq := by
    simp only [State.finish, HashMap.lookup_erase_eq] at hq
    split at hq
    next => cases hq
    next hne => exact h.consistent other q hne hq
  apart other other' q q' hq hq' haddr := by
    simp only [State.finish, HashMap.lookup_erase_eq] at hq hq'
    split at hq
    next => cases hq
    next hne =>
        split at hq'
        next => cases hq'
        next hne' => exact h.apart other other' q q' hne hne' hq hq' haddr

theorem sound_delete {s : State} (hs : Sound s) (key : UInt64) : Sound (s.delete key) where
  recorded k slot hk := by
    simp only [State.delete, HashMap.lookup_erase_eq] at hk
    split at hk
    next => cases hk
    next => exact hs.recorded k slot hk
  injective k k' slot hk hk' := by
    simp only [State.delete, HashMap.lookup_erase_eq] at hk hk'
    split at hk
    next => cases hk
    next =>
        split at hk'
        next => cases hk'
        next => exact hs.injective k k' slot hk hk'
  submitted := hs.submitted

theorem lookup_delete_of_ne {s : State} {key k : UInt64} (h : k ≠ key) :
    (s.delete key).index.lookup k = s.index.lookup k := by
  rw [State.delete, HashMap.lookup_erase_eq, if_neg h]

theorem others_delete {s : State} {cpu : ℕ} {addr : UInt64} (h : Others s cpu addr) :
    Others (s.delete addr) cpu addr where
  consistent other p hne hp := by
    have hkept := @lookup_delete_of_ne s addr p.task.addr (h.addr_ne other p hne hp)
    have hp' := h.consistent other p hne hp
    cases p with
    | entering | storing | exiting => trivial
    | found c ring task slot => exact hkept.trans hp'
    | timed c ring task slot latency serial => exact ⟨hkept.trans hp'.1, hp'.2⟩
    | deleted | reserved | filled => exact hp'
  addr_ne := h.addr_ne
  apart := h.apart

theorem recorded_store {s : State} {slot serial : ℕ} {key : UInt64} {record r : NfsPartialEvent}
    (h : s.recorded[serial]? = some r) : (s.store slot key record).recorded[serial]? = some r := by
  rw [State.store, List.getElem?_append_left (List.getElem?_eq_some_iff.mp h).choose]
  exact h

theorem integral_store {s : State} {slot serial : ℕ} {key : UInt64} {record : NfsPartialEvent}
    {event : Event} (h : Integral s event serial) :
    Integral (s.store slot key record) event serial := by
  obtain ⟨r, hr, hcommand, hmetric⟩ := h
  exact ⟨r, recorded_store hr, hcommand, hmetric⟩

theorem slots_store_of_ne {s : State} {slot other : ℕ} {key : UInt64} {record : NfsPartialEvent}
    (h : other ≠ slot) : (s.store slot key record).slots other = s.slots other :=
  Function.update_of_ne h _ _

theorem ne_of_not_used {s : State} {slot other : ℕ} {key : UInt64} (hfree : ¬ s.Used slot)
    (h : s.index.lookup key = some other) : other ≠ slot := by
  rintro rfl
  exact hfree ⟨key, Finmap.mem_keys.mpr (Finmap.mem_of_lookup_eq_some h), h⟩

theorem sound_store {s : State} (hs : Sound s) {slot : ℕ} {key : UInt64} {record : NfsPartialEvent}
    (hfree : ¬ s.Used slot) : Sound (s.store slot key record) where
  recorded k other hk := by
    simp only [State.store, HashMap.lookup_insert_eq] at hk
    split at hk
    next =>
        obtain rfl := Option.some.inj hk
        simp [State.store]
    next =>
        rw [slots_store_of_ne (ne_of_not_used hfree hk)]
        exact recorded_store (hs.recorded k other hk)
  injective k k' other hk hk' := by
    simp only [State.store, HashMap.lookup_insert_eq] at hk hk'
    split at hk
    next heq =>
        obtain rfl := Option.some.inj hk
        split at hk'
        next heq' => rw [heq, heq']
        next => exact absurd rfl (ne_of_not_used hfree hk')
    next =>
        split at hk'
        next =>
            obtain rfl := Option.some.inj hk'
            exact absurd rfl (ne_of_not_used hfree hk)
        next => exact hs.injective k k' other hk hk'
  submitted e he := integral_store (hs.submitted e he)

/-- Storing in a free slot disturbs at most the probes that await its old command. -/
theorem others_store {s : State} {cpu slot : ℕ} {addr : UInt64} {record : NfsPartialEvent}
    (h : Others s cpu addr) (hfree : ¬ s.Used slot)
    (hsame : ∀ other p, s.running.lookup other = some p → p.awaits = some slot →
      (s.slots slot).record.nfscommand = record.nfscommand) :
    Others (s.store slot addr record) cpu addr where
  consistent other p hne hp := by
    have haddr := h.addr_ne other p hne hp
    have hkept : (s.store slot addr record).index.lookup p.task.addr =
        s.index.lookup p.task.addr := by
      rw [State.store, HashMap.lookup_insert_eq, if_neg haddr]
    have hcommand : ∀ awaited, p.awaits = some awaited →
        ((s.store slot addr record).slots awaited).record.nfscommand =
          (s.slots awaited).record.nfscommand := by
      intro awaited hawaits
      by_cases heq : awaited = slot
      · subst heq
        rw [hsame other p hp hawaits]
        simp [State.store]
      · rw [slots_store_of_ne heq]
    have hp' := h.consistent other p hne hp
    cases p with
    | entering | storing | exiting => trivial
    | found c ring task found => exact hkept.trans hp'
    | timed c ring task found latency serial =>
        obtain ⟨hlookup, hserial, hlatency⟩ := hp'
        have hslot := @slots_store_of_ne s slot found addr record (ne_of_not_used hfree hlookup)
        refine ⟨hkept.trans hlookup, ?_, ?_⟩
        · rw [hslot, hserial]
        · rw [hslot, hlatency]
    | deleted c ring task found latency serial =>
        obtain ⟨r, hr, hlatency, hread⟩ := hp'
        refine ⟨r, recorded_store hr, hlatency, fun hroom => ?_⟩
        rw [hcommand found (if_pos hroom), hread hroom]
    | reserved c ring task found latency serial =>
        obtain ⟨hroom, r, hr, hlatency, hread⟩ := hp'
        refine ⟨hroom, r, recorded_store hr, hlatency, ?_⟩
        rw [hcommand found (if_pos hroom), hread]
    | filled ring task event serial => exact integral_store hp'
  addr_ne := h.addr_ne
  apart := h.apart

theorem inv_fresh (denylist : HashMap UInt16 UInt8) : Inv (State.fresh denylist) where
  sound := ⟨fun _ _ h => (nomatch h), fun _ _ _ h => (nomatch h), fun _ h => (nomatch h)⟩
  consistent _ _ h := nomatch h
  apart _ _ _ _ h := nomatch h

theorem State.busy_of_lookup {s : State} {task : RpcTask} {cpu : ℕ} {p : Phase}
    (hp : s.running.lookup cpu = some p) (haddr : p.task.addr = task.addr) : s.Busy task :=
  ⟨cpu, Finmap.mem_keys.mpr (Finmap.mem_of_lookup_eq_some hp), p, hp, haddr⟩

theorem Inv.others_of_not_busy {s : State} (h : Inv s) {task : RpcTask} (hbusy : ¬ s.Busy task)
    (cpu : ℕ) : Others s cpu task.addr where
  consistent other q _ hq := h.consistent other q hq
  addr_ne _ _ _ hq haddr := hbusy (State.busy_of_lookup hq haddr)
  apart other other' q q' _ _ hq hq' haddr := h.apart other other' q q' hq hq' haddr

theorem inv_storing {ro : Rodata} {s u : State} (h : Inv s) {cpu slot : ℕ} {c : DiagContext}
    {room : Bool} {task : RpcTask} (hp : s.running.lookup cpu = some (.storing c room task))
    (hkept : NotOverwritten s (.advance cpu slot))
    (hstep : advance ro s cpu slot (.storing c room task) = some u) : Inv u := by
  have hothers := h.others hp
  simp only [advance] at hstep
  split at hstep
  next =>
      cases hstep
      exact inv_finish h.sound hothers
  next hfull =>
      rw [not_or, Option.not_isSome_iff_eq_none, Bool.not_eq_false] at hfull
      obtain ⟨habsent, rfl⟩ := hfull
      split at hstep
      next => cases hstep
      next hfree =>
          cases hstep
          have hsame := fun reader p hread => hkept _ hp task rfl habsent reader
            (Finmap.mem_keys.mpr (Finmap.mem_of_lookup_eq_some hread)) p hread
          exact inv_finish (sound_store h.sound hfree) (others_store hothers hfree hsame)

theorem inv_timed {ro : Rodata} {s u : State} (h : Inv s) {cpu free slot serial : ℕ}
    {c : DiagContext} {ring : Fill} {task : RpcTask} {latency : UInt64}
    (hp : s.running.lookup cpu = some (.timed c ring task slot latency serial))
    (hstep : advance ro s cpu free (.timed c ring task slot latency serial) = some u) : Inv u := by
  have hsound := sound_delete h.sound task.addr
  have hothers := others_delete (h.others hp)
  obtain ⟨hlookup, rfl, hlatency⟩ := h.consistent _ _ hp
  simp only [advance] at hstep
  split at hstep
  next =>
      cases hstep
      exact inv_finish hsound hothers
  next =>
      cases hstep
      have hrecord := h.sound.recorded task.addr slot hlookup
      exact inv_goto hsound hothers ⟨_, hrecord, hlatency, fun _ => rfl⟩

theorem inv_submit {s : State} (h : Inv s) {cpu : ℕ} {ring : Fill} {task : RpcTask} {event : Event}
    {serial : ℕ} (hp : s.running.lookup cpu = some (.filled ring task event serial))
    (flags : ℕ) : Inv ((s.submit ⟨event, flags⟩ serial).finish cpu) := by
  have hothers := h.others hp
  have hsound : Sound (s.submit ⟨event, flags⟩ serial) :=
    ⟨h.sound.recorded, h.sound.injective, fun e he => by
      rcases List.mem_append.mp he with hold | hnew
      · exact h.sound.submitted e hold
      · rw [List.mem_singleton.mp hnew]
        exact h.consistent _ _ hp⟩
  exact inv_finish hsound ⟨hothers.consistent, hothers.addr_ne, hothers.apart⟩

/-- A step of a probe, one case for each place where it can stand. -/
theorem inv_advance {ro : Rodata} {s u : State} (h : Inv s) {cpu slot : ℕ} {p : Phase}
    (hp : s.running.lookup cpu = some p) (hkept : NotOverwritten s (.advance cpu slot))
    (hstep : advance ro s cpu slot p = some u) : Inv u := by
  have hothers := h.others hp
  cases p with
  | entering c room task =>
      simp only [advance] at hstep
      split at hstep
      next =>
          cases hstep
          exact inv_finish h.sound hothers
      next =>
          cases hstep
          exact inv_goto h.sound hothers trivial
  | storing c room task => exact inv_storing h hp hkept hstep
  | exiting c ring task =>
      simp only [advance] at hstep
      split at hstep
      next =>
          cases hstep
          exact inv_finish h.sound hothers
      next found hfound =>
          cases hstep
          exact inv_goto h.sound hothers hfound
  | found c ring task found =>
      cases hstep
      exact inv_goto h.sound hothers ⟨h.consistent _ _ hp, rfl, rfl⟩
  | timed c ring task found latency serial => exact inv_timed h hp hstep
  | deleted c ring task found latency serial =>
      simp only [advance] at hstep
      split at hstep
      next hroom =>
          cases hstep
          have hring : ring.room = true := hroom
          obtain ⟨r, hr, hlatency, hread⟩ := h.consistent _ _ hp
          exact inv_goto h.sound hothers ⟨hring, r, hr, hlatency, hread hring⟩
      next =>
          cases hstep
          exact inv_finish h.sound hothers
  | reserved c ring task found latency serial =>
      cases hstep
      obtain ⟨-, r, hr, hlatency, hread⟩ := h.consistent _ _ hp
      exact inv_goto h.sound hothers ⟨r, hr, hread, congrArg Metric.latencyNs hlatency⟩
  | filled ring task event serial =>
      cases hstep
      exact inv_submit h hp _

theorem inv_step {ro : Rodata} {s u : State} (h : Inv s) {move : Move}
    (hkept : NotOverwritten s move) (hstep : step ro s move = some u) : Inv u := by
  cases move with
  | start cpu probe =>
      simp only [step] at hstep
      split at hstep
      next => cases hstep
      next hidle =>
          cases hstep
          have hothers := h.others_of_not_busy (not_or.mp hidle).2 cpu
          cases probe <;> exact inv_goto h.sound hothers trivial
  | advance cpu slot =>
      obtain ⟨p, hp, hadvance⟩ := Option.bind_eq_some_iff.mp hstep
      exact inv_advance h hp hkept hadvance

structure Refines (s : State) (m : Maps) : Prop where
  denylist : s.denylist = m.denylist
  temp : ∀ key, (s.index.lookup key).map (fun slot => (s.slots slot).record) = m.temp.lookup key
  submissions : s.submissions.map Prod.fst = m.submissions

theorem refines_fresh (denylist : HashMap UInt16 UInt8) :
    Refines (State.fresh denylist) (Maps.fresh denylist) :=
  ⟨rfl, fun _ => rfl, rfl⟩

/-- The probe on a processor runs to the state `u` while the others stand still. -/
def Alone (ro : Rodata) (cpu slot : ℕ) (s u : State) : Prop :=
  ∃ n, run (step ro) s (List.replicate n (.advance cpu slot)) = some u

theorem Alone.refl (ro : Rodata) (cpu slot : ℕ) (s : State) : Alone ro cpu slot s s := ⟨0, rfl⟩

theorem Alone.head {ro : Rodata} {cpu slot : ℕ} {s s' u : State} {p : Phase}
    (hstep : advance ro (s.goto cpu p) cpu slot p = some s') (h : Alone ro cpu slot s' u) :
    Alone ro cpu slot (s.goto cpu p) u := by
  obtain ⟨n, hn⟩ := h
  refine ⟨n + 1, ?_⟩
  have hp : (s.goto cpu p).running.lookup cpu = some p := Finmap.lookup_insert _
  rw [List.replicate_succ, run_cons, step, hp, Option.bind_some, hstep, Option.bind_some, hn]

theorem Alone.finishes {ro : Rodata} {cpu slot : ℕ} {s s' : State} {p : Phase}
    (hstep : advance ro (s.goto cpu p) cpu slot p = some s') :
    Alone ro cpu slot (s.goto cpu p) s' := .head hstep (.refl ro cpu slot s')

theorem denied_eq {s : State} {m : Maps} (h : Refines s m) (command : UInt16) :
    s.denied command = m.denied command := by rw [State.denied, Maps.denied, h.denylist]

theorem refines_store {s : State} {m : Maps} (h : Refines s m) {slot : ℕ} {key : UInt64}
    {record : NfsPartialEvent} (hfree : ¬ s.Used slot) :
    Refines (s.store slot key record) {m with temp := m.temp.insert key record} where
  denylist := h.denylist
  temp k := by
    simp only [State.store, HashMap.lookup_insert_eq]
    split
    next => rw [Option.map_some, Function.update_self]
    next =>
        rw [← h.temp k]
        refine Option.map_congr fun other hother => ?_
        rw [Function.update_of_ne (ne_of_not_used hfree hother)]
  submissions := h.submissions

theorem refines_delete {s : State} {m : Maps} (h : Refines s m) (key : UInt64) :
    Refines (s.delete key) {m with temp := m.temp.erase key} where
  denylist := h.denylist
  temp k := by
    simp only [State.delete, HashMap.lookup_erase_eq]
    split
    next => rfl
    next => exact h.temp k
  submissions := h.submissions

theorem alone_storing (ro : Rodata) {s : State} {m : Maps} (h : Refines s m) {cpu slot : ℕ}
    (hfree : ¬ s.Used slot) (c : DiagContext) (room : Bool) (task : RpcTask) :
    ∃ u, Alone ro cpu slot (s.goto cpu (.storing c room task)) u ∧ Refines u
      {m with temp := m.temp.updateNoexist room task.addr ⟨task.nfscommand, c.ktime⟩} := by
  have hsome := congrArg Option.isSome (h.temp task.addr)
  rw [Option.isSome_map] at hsome
  rw [HashMap.updateNoexist, ← hsome]
  cases hpresent : (s.index.lookup task.addr).isSome with
  | true => exact ⟨_, .finishes (if_pos (.inl hpresent)), h.denylist, h.temp, h.submissions⟩
  | false =>
      cases room with
      | false => exact ⟨_, .finishes (if_pos (.inr rfl)), h.denylist, h.temp, h.submissions⟩
      | true =>
          have habsent : ¬ ((s.index.lookup task.addr).isSome = true ∨ true = false) := by
            simp [hpresent]
          have hstored := @refines_store s m h slot task.addr ⟨task.nfscommand, c.ktime⟩ hfree
          exact ⟨_, .finishes ((if_neg habsent).trans (if_neg hfree)), hstored.denylist,
            hstored.temp, hstored.submissions⟩

theorem alone_probeEntry (ro : Rodata) {s : State} {m : Maps} (h : Refines s m) {cpu slot : ℕ}
    (hfree : ¬ s.Used slot) (c : DiagContext) (room : Bool) (task : RpcTask) :
    ∃ u, Alone ro cpu slot (s.goto cpu (.entering c room task)) u ∧
      Refines u (probeEntry m c room task) := by
  rw [probeEntry, ← denied_eq h]
  split
  next hdenied =>
      exact ⟨_, .finishes (if_pos hdenied), h.denylist, h.temp, h.submissions⟩
  next hallowed =>
      let here := s.goto cpu (.entering c room task)
      have hhere : Refines here m := ⟨h.denylist, h.temp, h.submissions⟩
      obtain ⟨u, hrun, hu⟩ := @alone_storing ro here m hhere cpu slot hfree c room task
      exact ⟨u, .head (if_neg hallowed) hrun, hu⟩

theorem alone_probeExit (ro : Rodata) {s : State} {m : Maps} (h : Refines s m) {cpu slot : ℕ}
    (c : DiagContext) (ring : Fill) (task : RpcTask) :
    ∃ u, Alone ro cpu slot (s.goto cpu (.exiting c ring task)) u ∧
      Refines u (probeExit ro m c ring task) := by
  have hlookup := h.temp task.addr
  rw [probeExit, ← hlookup]
  cases hfound : s.index.lookup task.addr with
  | none =>
      have hstep : advance ro (s.goto cpu (.exiting c ring task)) cpu slot (.exiting c ring task) =
          some ((s.goto cpu (.exiting c ring task)).finish cpu) := by
        simp only [advance, State.goto, hfound]
      exact ⟨_, .finishes hstep, h.denylist, h.temp, h.submissions⟩
  | some found =>
      have hstep (t : State) (ht : t.index = s.index) : advance ro t cpu slot
          (.exiting c ring task) = some (t.goto cpu (.found c ring task found)) := by
        simp only [advance, ht, hfound]
      have hdeleted := refines_delete h task.addr
      simp only [Option.map_some, completion, submitEvent]
      split
      next hfast =>
          rw [Option.toList_none, List.append_nil]
          exact ⟨_, .head (hstep _ rfl) (.head rfl (.finishes (if_pos hfast))), hdeleted.denylist,
            hdeleted.temp, hdeleted.submissions⟩
      next hslow =>
          split
          next hroom =>
              refine ⟨_, .head (hstep _ rfl) (.head rfl (.head (if_neg hslow)
                (.head (if_pos hroom) (.head rfl (.finishes rfl))))), hdeleted.denylist,
                hdeleted.temp, ?_⟩
              exact (List.map_append ..).trans (congrArg (· ++ _) h.submissions)
          next hfull =>
              rw [Option.toList_none, List.append_nil]
              exact ⟨_, .head (hstep _ rfl) (.head rfl (.head (if_neg hslow)
                (.finishes (if_neg hfull)))), hdeleted.denylist, hdeleted.temp,
                hdeleted.submissions⟩

/-- A probe that starts on an idle processor and is left alone has the effect of the
program on the maps. -/
theorem alone_fire (ro : Rodata) {s : State} {m : Maps} (h : Refines s m) {cpu slot : ℕ}
    (hfree : ¬ s.Used slot) (hidle : s.running.lookup cpu = none) {probe : Firing}
    (hbusy : ¬ s.Busy (Phase.start probe).task) :
    ∃ n u, run (step ro) s (.start cpu probe :: List.replicate n (.advance cpu slot)) = some u ∧
      Refines u (fire ro m probe) := by
  have hstart : step ro s (.start cpu probe) = some (s.goto cpu (Phase.start probe)) :=
    if_neg (not_or.mpr ⟨by rw [hidle]; decide, hbusy⟩)
  have halone : ∃ u, Alone ro cpu slot (s.goto cpu (Phase.start probe)) u ∧
      Refines u (fire ro m probe) := by
    cases probe with
    | nfs4SetupSequence c room task => exact alone_probeEntry ro h hfree c room task
    | rpcExitTask c ring task => exact alone_probeExit ro h c ring task
  obtain ⟨u, ⟨n, hrun⟩, hu⟩ := halone
  refine ⟨n, u, ?_, hu⟩
  rw [run_cons, hstart]
  exact hrun

/-- A request starts and ends alone. -/
def quiet : List Move :=
  let task : RpcTask := ⟨0x7000, 5, 0⟩
  [.start 0 (.nfs4SetupSequence ⟨0, Buffer.zero 16, 100⟩ true task), .advance 0 3, .advance 0 3,
    .start 0 (.rpcExitTask ⟨0, Buffer.zero 16, 900⟩ ⟨true, 0, 0⟩ task)] ++
    List.replicate 6 (.advance 0 0)

/-- The exit probe of one task on processor 0 has deleted its record when the setup
probe of another task on processor 1 takes the slot. -/
def overtaken : List Move :=
  let first : RpcTask := ⟨0x7000, 5, 0⟩
  let second : RpcTask := ⟨0x8000, 9, 0⟩
  [.start 0 (.nfs4SetupSequence ⟨0, Buffer.zero 16, 100⟩ true first), .advance 0 3, .advance 0 3,
    .start 0 (.rpcExitTask ⟨0, Buffer.zero 16, 900⟩ ⟨true, 0, 0⟩ first), .advance 0 0,
    .advance 0 0, .advance 0 0,
    .start 1 (.nfs4SetupSequence ⟨0, Buffer.zero 16, 890⟩ true second), .advance 1 0, .advance 1 3,
    .advance 0 0, .advance 0 0, .advance 0 0]

/-- Along every run in which no awaited command is overwritten, every submitted event
tells the command of the request whose start gave its latency. -/
theorem events_integral (ro : Rodata) (denylist : HashMap UInt16 UInt8) (moves : List Move)
    (s : State) (hrun : run (step ro) (State.fresh denylist) moves = some s)
    (hkept : Along (step ro) NotOverwritten (State.fresh denylist) moves) :
    ∀ e ∈ s.submissions, Integral s e.1.event e.2 := by
  have h := run_invariant_along (fun _ _ _ h hkept hstep => inv_step h hkept hstep) hrun
    (inv_fresh denylist) hkept
  exact h.sound.submitted

theorem events_integral_quiet : ∃ s, run (step ⟨0, 0⟩) (State.fresh ∅) quiet = some s ∧
    s.submissions.length = 1 ∧ ∀ e ∈ s.submissions, Integral s e.1.event e.2 := by
  have hends : ((run (step ⟨0, 0⟩) (State.fresh ∅) quiet).map fun s => s.submissions.length) =
      some 1 := by decide +kernel
  have hkept : Along (step ⟨0, 0⟩) NotOverwritten (State.fresh ∅) quiet := by decide +kernel
  obtain ⟨s, hrun, hlength⟩ := Option.map_eq_some_iff.mp hends
  exact ⟨s, hrun, hlength, events_integral _ _ _ _ hrun hkept⟩

/-- The event of the overtaken probe has the command of the other task. -/
theorem events_integral_fails_overtaken :
    ¬ ∀ (ro : Rodata) (denylist : HashMap UInt16 UInt8) (moves : List Move) (s : State),
      run (step ro) (State.fresh denylist) moves = some s →
        ∀ e ∈ s.submissions, Integral s e.1.event e.2 := by
  intro h
  have hends : ((run (step ⟨0, 0⟩) (State.fresh ∅) overtaken).map fun s =>
      (s.submissions.map fun e => (e.1.event.command, e.2), s.recorded)) =
      some ([(9, 0)], [⟨5, 100⟩, ⟨9, 890⟩]) := by decide +kernel
  obtain ⟨s, hrun, heq⟩ := Option.map_eq_some_iff.mp hends
  obtain ⟨hsubmissions, hrecorded⟩ := Prod.mk.inj heq
  have hmem : ((9, 0) : UInt16 × ℕ) ∈ s.submissions.map fun e => (e.1.event.command, e.2) := by
    rw [hsubmissions]
    exact List.mem_singleton_self _
  obtain ⟨e, he, hpair⟩ := List.mem_map.mp hmem
  obtain ⟨hcommand, hserial⟩ := Prod.mk.inj hpair
  obtain ⟨r, hr, hsame, -⟩ := h _ _ _ s hrun e he
  rw [hrecorded, hserial] at hr
  rw [← Option.some.inj hr, hcommand] at hsame
  exact absurd hsame (by decide)

end MonitoringTools.NfsslowerInterleaving
