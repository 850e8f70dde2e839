import MonitoringTools.Linearization
import MonitoringTools.NfsslowerInterleaving

/-!
# The nfsslower probes take effect one after the other

While no awaited command is overwritten, a run on several processors submits what the
probes submit when each runs at once, in the order in which they finish. Between its
deletion of a record and its end a probe is the only one that still knows the record:
the maps of the atomic run hold it until then.
-/
namespace MonitoringTools.NfsslowerHistories
open BpfHelpers DiagEvents Linearization NfsslowerProbes NfsslowerInterleaving Runs

/-- The record that a key leads to. -/
def recordAt (s : State) (key : UInt64) : Option NfsPartialEvent :=
  (s.index.lookup key).map fun slot => (s.slots slot).record

/-- The probe has deleted its record. -/
def past : Phase → Bool
  | .deleted .. | .reserved .. | .filled .. => true
  | _ => false

def begins : Move → Option (ℕ × Firing)
  | .start cpu probe => some (cpu, probe)
  | .advance _ _ => none

def busy (s : State) (cpu : ℕ) : Bool := (s.running.lookup cpu).isSome

/-- Where a probe stands, and what the maps of the atomic run hold for it. -/
inductive Stands (ro : Rodata) (s : State) (m : Maps) : Firing → Phase → Prop
  | entering (c room task) : Stands ro s m (.nfs4SetupSequence c room task) (.entering c room task)
  | storing (c room task) (hallowed : m.denied task.nfscommand = false) :
      Stands ro s m (.nfs4SetupSequence c room task) (.storing c room task)
  | exiting (c ring task) : Stands ro s m (.rpcExitTask c ring task) (.exiting c ring task)
  | found (c ring task slot) : Stands ro s m (.rpcExitTask c ring task) (.found c ring task slot)
  | timed (c ring task slot latency serial) :
      Stands ro s m (.rpcExitTask c ring task) (.timed c ring task slot latency serial)
  | deleted (c ring task slot latency serial r) (hgone : s.index.lookup task.addr = none)
      (hslow : ¬ latency < ro.minLatNs) (hr : s.recorded[serial]? = some r)
      (htemp : m.temp.lookup task.addr = some r) :
      Stands ro s m (.rpcExitTask c ring task) (.deleted c ring task slot latency serial)
  | reserved (c ring task slot latency serial r) (hgone : s.index.lookup task.addr = none)
      (hslow : ¬ latency < ro.minLatNs) (hr : s.recorded[serial]? = some r)
      (htemp : m.temp.lookup task.addr = some r) :
      Stands ro s m (.rpcExitTask c ring task) (.reserved c ring task slot latency serial)
  | filled (c ring task serial r) (hgone : s.index.lookup task.addr = none)
      (hroom : ring.room = true) (hslow : ¬ c.ktime - r.startNs < ro.minLatNs)
      (htemp : m.temp.lookup task.addr = some r) :
      Stands ro s m (.rpcExitTask c ring task) (.filled ring task (eventOf c task r) serial)

structure Tracks (ro : Rodata) (s : State) (m : Maps) (pending : List (ℕ × Firing)) : Prop where
  denylist : s.denylist = m.denylist
  submissions : s.submissions.map Prod.fst = m.submissions
  records : ∀ key, (∀ cpu p, s.running.lookup cpu = some p → past p = true → p.task.addr ≠ key) →
    recordAt s key = m.temp.lookup key
  stands : ∀ cpu p, s.running.lookup cpu = some p →
    ∃ probe, (cpu, probe) ∈ pending ∧ Stands ro s m probe p
  running : ∀ x ∈ pending, busy s x.1 = true
  nodup : (pending.map Prod.fst).Nodup

theorem tracks_fresh (ro : Rodata) (denylist : HashMap UInt16 UInt8) :
    Tracks ro (State.fresh denylist) (Maps.fresh denylist) [] where
  denylist := rfl
  submissions := rfl
  records _ _ := rfl
  stands _ _ h := nomatch h
  running _ h := nomatch h
  nodup := List.nodup_nil

/-- What one probe does to the memory is seen at its own task alone. -/
structure Touches (s u : State) (addr : UInt64) : Prop where
  denylist : u.denylist = s.denylist
  index : ∀ key, key ≠ addr → u.index.lookup key = s.index.lookup key
  records : ∀ key, key ≠ addr → recordAt u key = recordAt s key
  recorded : ∀ (serial : ℕ) r, s.recorded[serial]? = some r → u.recorded[serial]? = some r

structure Spares (m m' : Maps) (addr : UInt64) : Prop where
  denylist : m'.denylist = m.denylist
  temp : ∀ key, key ≠ addr → m'.temp.lookup key = m.temp.lookup key

theorem Touches.refl (s : State) (addr : UInt64) : Touches s s addr :=
  ⟨rfl, fun _ _ => rfl, fun _ _ => rfl, fun _ _ h => h⟩

theorem Spares.refl (m : Maps) (addr : UInt64) : Spares m m addr := ⟨rfl, fun _ _ => rfl⟩

theorem touches_delete (s : State) (addr : UInt64) : Touches s (s.delete addr) addr where
  denylist := rfl
  index _ hne := lookup_delete_of_ne hne
  records _ hne := by
    unfold recordAt
    rw [lookup_delete_of_ne hne]
    rfl
  recorded _ _ h := h

theorem touches_store {s : State} {slot : ℕ} (hfree : ¬ s.Used slot) (addr : UInt64)
    (record : NfsPartialEvent) : Touches s (s.store slot addr record) addr where
  denylist := rfl
  index key hne := by rw [State.store, HashMap.lookup_insert_eq, if_neg hne]
  records key hne := by
    have hindex : (s.store slot addr record).index.lookup key = s.index.lookup key := by
      rw [State.store, HashMap.lookup_insert_eq, if_neg hne]
    unfold recordAt
    rw [hindex]
    refine Option.map_congr fun other hother => ?_
    rw [slots_store_of_ne (ne_of_not_used hfree hother)]
  recorded _ _ h := recorded_store h

theorem touches_submit (s : State) (submission : Submission) (serial : ℕ) (addr : UInt64) :
    Touches s (s.submit submission serial) addr :=
  ⟨rfl, fun _ _ => rfl, fun _ _ => rfl, fun _ _ h => h⟩

theorem Touches.goto {s u : State} {addr : UInt64} (h : Touches s u addr) (cpu : ℕ) (p : Phase) :
    Touches s (u.goto cpu p) addr := ⟨h.denylist, h.index, h.records, h.recorded⟩

theorem Touches.finish {s u : State} {addr : UInt64} (h : Touches s u addr) (cpu : ℕ) :
    Touches s (u.finish cpu) addr := ⟨h.denylist, h.index, h.records, h.recorded⟩

theorem Stands.frame {ro : Rodata} {s u : State} {m m' : Maps} {addr : UInt64} {probe : Firing}
    {p : Phase} (h : Stands ro s m probe p) (ht : Touches s u addr) (hm : Spares m m' addr)
    (hne : p.task.addr ≠ addr) : Stands ro u m' probe p := by
  cases h with
  | entering c room task => exact .entering c room task
  | storing c room task hallowed =>
      refine .storing c room task ?_
      rw [Maps.denied, hm.denylist]
      exact hallowed
  | exiting c ring task => exact .exiting c ring task
  | found c ring task slot => exact .found c ring task slot
  | timed c ring task slot latency serial => exact .timed c ring task slot latency serial
  | deleted c ring task slot latency serial r hgone hslow hr htemp =>
      exact .deleted c ring task slot latency serial r ((ht.index _ hne).trans hgone) hslow
        (ht.recorded _ _ hr) ((hm.temp _ hne).trans htemp)
  | reserved c ring task slot latency serial r hgone hslow hr htemp =>
      exact .reserved c ring task slot latency serial r ((ht.index _ hne).trans hgone) hslow
        (ht.recorded _ _ hr) ((hm.temp _ hne).trans htemp)
  | filled c ring task serial r hgone hroom hslow htemp =>
      exact .filled c ring task serial r ((ht.index _ hne).trans hgone) hroom hslow
        ((hm.temp _ hne).trans htemp)

section Steps
variable {ro : Rodata} {s u : State} {m m' : Maps} {pending : List (ℕ × Firing)} {cpu : ℕ}
  {p q : Phase} {probe : Firing}

theorem Tracks.records_eq (h : Tracks ro s m pending) (hinv : Inv s)
    (hp : s.running.lookup cpu = some p) (hpast : past p = false) :
    recordAt s p.task.addr = m.temp.lookup p.task.addr := by
  refine h.records _ fun other p' hp' hpast' haddr => ?_
  obtain rfl := hinv.apart other cpu p' p hp' hp haddr
  rw [Option.some.inj (hp'.symm.trans hp), hpast] at hpast'
  cases hpast'

theorem Tracks.goto (h : Tracks ro s m pending) (hinv : Inv s)
    (hp : s.running.lookup cpu = some p) (hrunning : u.running = s.running)
    (ht : Touches s u p.task.addr) (hsubmissions : u.submissions = s.submissions)
    (haddr : q.task.addr = p.task.addr)
    (hkept : past q = true ∨ recordAt u p.task.addr = m.temp.lookup p.task.addr)
    (hmember : (cpu, probe) ∈ pending) (hq : Stands ro (u.goto cpu q) m probe q) :
    Tracks ro (u.goto cpu q) m pending where
  denylist := ht.denylist.trans h.denylist
  submissions := by
    rw [← h.submissions, ← hsubmissions]
    rfl
  records key hkey := by
    have hlookup : (u.goto cpu q).running.lookup cpu = some q := Finmap.lookup_insert _
    by_cases hne : key = p.task.addr
    · subst hne
      rcases hkept with hpast | hrecord
      · exact absurd haddr (hkey cpu q hlookup hpast)
      · exact hrecord
    · refine (ht.records key hne).trans (h.records key fun other p' hp' hpast => ?_)
      by_cases hother : other = cpu
      · subst hother
        rw [Option.some.inj (hp'.symm.trans hp)]
        exact Ne.symm hne
      · refine hkey other p' ?_ hpast
        rw [State.goto, HashMap.lookup_insert_eq, if_neg hother, hrunning, hp']
  stands other p' hp' := by
    rw [State.goto, HashMap.lookup_insert_eq, hrunning] at hp'
    split at hp'
    next heq =>
        cases hp'
        exact ⟨probe, heq ▸ hmember, hq⟩
    next hother =>
        obtain ⟨probe', hmember', hstands⟩ := h.stands other p' hp'
        have haddr' : p'.task.addr ≠ p.task.addr := fun he =>
          hother (hinv.apart other cpu p' p hp' hp he)
        exact ⟨probe', hmember', hstands.frame (ht.goto cpu q) (.refl m _) haddr'⟩
  running x hx := by
    have hbusy := h.running x hx
    unfold busy at hbusy ⊢
    rw [State.goto, HashMap.lookup_insert_eq, hrunning]
    split
    · rfl
    · exact hbusy
  nodup := h.nodup

/-- A probe ends, and what it did to the maps was done at its own task. -/
theorem Tracks.finish (h : Tracks ro s m pending) (hinv : Inv s)
    (hp : s.running.lookup cpu = some p) (hrunning : u.running = s.running)
    (ht : Touches s u p.task.addr) (hm : Spares m m' p.task.addr)
    (hsubmissions : u.submissions.map Prod.fst = m'.submissions)
    (hrecord : recordAt u p.task.addr = m'.temp.lookup p.task.addr) :
    Tracks ro (u.finish cpu) m' (pending.filter fun x => busy (u.finish cpu) x.1) where
  denylist := by
    rw [hm.denylist, ← h.denylist, ← ht.denylist]
    rfl
  submissions := hsubmissions
  records key hkey := by
    by_cases hne : key = p.task.addr
    · rw [hne]
      exact hrecord
    · rw [hm.temp key hne]
      refine (ht.records key hne).trans (h.records key fun other p' hp' hpast => ?_)
      by_cases hother : other = cpu
      · subst hother
        rw [Option.some.inj (hp'.symm.trans hp)]
        exact Ne.symm hne
      · refine hkey other p' ?_ hpast
        rw [State.finish, HashMap.lookup_erase_eq, if_neg hother, hrunning, hp']
  stands other p' hp' := by
    have hbusy : busy (u.finish cpu) other = true := by rw [busy, hp']; rfl
    rw [State.finish, HashMap.lookup_erase_eq, hrunning] at hp'
    split at hp'
    next => cases hp'
    next hother =>
        obtain ⟨probe', hmember', hstands⟩ := h.stands other p' hp'
        have haddr' : p'.task.addr ≠ p.task.addr := fun he =>
          hother (hinv.apart other cpu p' p hp' hp he)
        exact ⟨probe', List.mem_filter.mpr ⟨hmember', hbusy⟩,
          hstands.frame (ht.finish cpu) hm haddr'⟩
  running x hx := (List.mem_filter.mp hx).2
  nodup := h.nodup.sublist (List.filter_sublist.map Prod.fst)

/-- After a step of the probe on a processor: it goes on, or it has ended and has taken
effect on the maps. -/
def Advanced (ro : Rodata) (m : Maps) (pending : List (ℕ × Firing)) (cpu : ℕ) (probe : Firing)
    (u : State) : Prop :=
  (busy u cpu = true ∧ Tracks ro u m pending) ∨
    (busy u cpu = false ∧
      Tracks ro u (fire ro m probe) (pending.filter fun x => busy u x.1))

theorem busy_goto (s : State) (cpu : ℕ) (p : Phase) : busy (s.goto cpu p) cpu = true := by
  rw [busy, State.goto, HashMap.lookup_insert_eq, if_pos rfl]
  rfl

theorem busy_finish (s : State) (cpu : ℕ) : busy (s.finish cpu) cpu = false := by
  rw [busy, State.finish, HashMap.lookup_erase_eq, if_pos rfl]
  rfl

theorem Tracks.ends_idle (h : Tracks ro s m pending) (hinv : Inv s)
    (hp : s.running.lookup cpu = some p) (hpast : past p = false) (hfire : fire ro m probe = m) :
    Advanced ro m pending cpu probe (s.finish cpu) := by
  refine .inr ⟨busy_finish s cpu, ?_⟩
  rw [hfire]
  exact h.finish hinv hp rfl (.refl s _) (.refl m _) h.submissions (h.records_eq hinv hp hpast)

theorem Tracks.goes_on (h : Tracks ro s m pending) (hinv : Inv s)
    (hp : s.running.lookup cpu = some p) (hpast : past p = false)
    (haddr : q.task.addr = p.task.addr) (hmember : (cpu, probe) ∈ pending)
    (hq : Stands ro (s.goto cpu q) m probe q) :
    Advanced ro m pending cpu probe (s.goto cpu q) :=
  .inl ⟨busy_goto s cpu q, h.goto hinv hp rfl (.refl s _) rfl haddr
    (.inr (h.records_eq hinv hp hpast)) hmember hq⟩

theorem Tracks.denied_eq (h : Tracks ro s m pending) (command : UInt16) :
    s.denied command = m.denied command := by rw [State.denied, Maps.denied, h.denylist]

theorem tracks_storing (h : Tracks ro s m pending) (hinv : Inv s) {slot : ℕ} {c : DiagContext}
    {room : Bool} {task : RpcTask} (hp : s.running.lookup cpu = some (.storing c room task))
    (hallowed : m.denied task.nfscommand = false)
    (hstep : advance ro s cpu slot (.storing c room task) = some u) :
    Advanced ro m pending cpu (.nfs4SetupSequence c room task) u := by
  have hrecords : recordAt s task.addr = m.temp.lookup task.addr := h.records_eq hinv hp rfl
  have hisSome := congrArg Option.isSome hrecords
  rw [recordAt, Option.isSome_map] at hisSome
  simp only [advance] at hstep
  split at hstep
  next hskipped =>
      cases hstep
      refine h.ends_idle hinv hp rfl ?_
      rw [fire, probeEntry, hallowed, HashMap.updateNoexist, ← hisSome]
      rcases hskipped with hpresent | rfl
      · rw [if_pos hpresent]
        rfl
      · rw [HashMap.update_false, ite_self]
        rfl
  next hfull =>
      rw [not_or, Option.not_isSome_iff_eq_none, Bool.not_eq_false] at hfull
      obtain ⟨habsent, rfl⟩ := hfull
      split at hstep
      next => cases hstep
      next hfree =>
          cases hstep
          have hfire : fire ro m (.nfs4SetupSequence c true task) =
              {m with temp := m.temp.insert task.addr ⟨task.nfscommand, c.ktime⟩} := by
            rw [fire, probeEntry, hallowed, HashMap.updateNoexist, ← hisSome, habsent]
            rfl
          refine .inr ⟨busy_finish _ cpu, ?_⟩
          rw [hfire]
          refine h.finish hinv hp rfl (touches_store hfree _ _) ⟨rfl, fun key hne => ?_⟩
            h.submissions ?_
          · exact Finmap.lookup_insert_of_ne _ hne
          · simp [recordAt, State.store, Phase.task]

theorem fire_rpcExitTask {c : DiagContext} {ring : Fill} {task : RpcTask} {r : NfsPartialEvent}
    (h : m.temp.lookup task.addr = some r) : fire ro m (.rpcExitTask c ring task) =
      {m with
        temp := m.temp.erase task.addr
        submissions := m.submissions ++ (completion ro c ring task r).toList} := by
  rw [fire, probeExit, h]

theorem Tracks.ends_exit (h : Tracks ro s m pending) (hinv : Inv s)
    (hp : s.running.lookup cpu = some p) (hrunning : u.running = s.running)
    (ht : Touches s u p.task.addr) {c : DiagContext} {ring : Fill} {r : NfsPartialEvent}
    (hgone : u.index.lookup p.task.addr = none) (htemp : m.temp.lookup p.task.addr = some r)
    (hsubmissions : u.submissions.map Prod.fst =
      m.submissions ++ (completion ro c ring p.task r).toList) :
    Advanced ro m pending cpu (.rpcExitTask c ring p.task) (u.finish cpu) := by
  refine .inr ⟨busy_finish u cpu, ?_⟩
  rw [fire_rpcExitTask htemp]
  refine h.finish hinv hp hrunning ht ⟨rfl, fun key hne => ?_⟩ hsubmissions ?_
  · exact Finmap.lookup_erase_ne hne
  · rw [recordAt, hgone, HashMap.lookup_erase_eq, if_pos rfl]
    rfl

theorem tracks_timed (h : Tracks ro s m pending) (hinv : Inv s) {free slot serial : ℕ}
    {c : DiagContext} {ring : Fill} {task : RpcTask} {latency : UInt64}
    (hp : s.running.lookup cpu = some (.timed c ring task slot latency serial))
    (hmember : (cpu, .rpcExitTask c ring task) ∈ pending)
    (hstep : advance ro s cpu free (.timed c ring task slot latency serial) = some u) :
    Advanced ro m pending cpu (.rpcExitTask c ring task) u := by
  obtain ⟨hlookup, rfl, rfl⟩ := hinv.consistent _ _ hp
  have htemp : m.temp.lookup task.addr = some (s.slots slot).record := by
    rw [← show recordAt s task.addr = m.temp.lookup task.addr from h.records_eq hinv hp rfl,
      recordAt, hlookup, Option.map_some]
  have hgone : (s.delete task.addr).index.lookup task.addr = none := by
    rw [State.delete, HashMap.lookup_erase_eq, if_pos rfl]
  have ht := touches_delete s task.addr
  simp only [advance] at hstep
  split at hstep
  next hfast =>
      cases hstep
      refine h.ends_exit (u := s.delete task.addr) hinv hp rfl ht hgone htemp ?_
      rw [completion, if_pos hfast, Option.toList_none, List.append_nil]
      exact h.submissions
  next hslow =>
      cases hstep
      refine .inl ⟨busy_goto _ cpu _, h.goto hinv hp rfl ht rfl rfl (.inl rfl) hmember ?_⟩
      exact .deleted c ring task slot _ _ _ hgone hslow (hinv.sound.recorded _ _ hlookup) htemp

theorem tracks_deleted (h : Tracks ro s m pending) (hinv : Inv s) {free slot serial : ℕ}
    {c : DiagContext} {ring : Fill} {task : RpcTask} {latency : UInt64} {r : NfsPartialEvent}
    (hp : s.running.lookup cpu = some (.deleted c ring task slot latency serial))
    (hmember : (cpu, .rpcExitTask c ring task) ∈ pending)
    (hgone : s.index.lookup task.addr = none) (hslow : ¬ latency < ro.minLatNs)
    (hr : s.recorded[serial]? = some r) (htemp : m.temp.lookup task.addr = some r)
    (hstep : advance ro s cpu free (.deleted c ring task slot latency serial) = some u) :
    Advanced ro m pending cpu (.rpcExitTask c ring task) u := by
  simp only [advance] at hstep
  split at hstep
  next =>
      cases hstep
      refine .inl ⟨busy_goto _ cpu _, h.goto hinv hp rfl (.refl s _) rfl rfl (.inl rfl) hmember ?_⟩
      exact .reserved c ring task slot _ _ _ hgone hslow hr htemp
  next hfull =>
      cases hstep
      refine h.ends_exit hinv hp rfl (.refl s _) hgone htemp ?_
      rw [completion, submitEvent, if_neg hfull, ite_self, Option.toList_none, List.append_nil]
      exact h.submissions

theorem tracks_reserved (h : Tracks ro s m pending) (hinv : Inv s) {free slot serial : ℕ}
    {c : DiagContext} {ring : Fill} {task : RpcTask} {latency : UInt64} {r : NfsPartialEvent}
    (hp : s.running.lookup cpu = some (.reserved c ring task slot latency serial))
    (hmember : (cpu, .rpcExitTask c ring task) ∈ pending)
    (hgone : s.index.lookup task.addr = none) (hslow : ¬ latency < ro.minLatNs)
    (hr : s.recorded[serial]? = some r) (htemp : m.temp.lookup task.addr = some r)
    (hstep : advance ro s cpu free (.reserved c ring task slot latency serial) = some u) :
    Advanced ro m pending cpu (.rpcExitTask c ring task) u := by
  obtain ⟨hroom, r', hr', rfl, hcommand⟩ := hinv.consistent _ _ hp
  obtain rfl := Option.some.inj (hr'.symm.trans hr)
  have hevent : eventWith c task (c.ktime - r'.startNs) (s.slots slot).record.nfscommand =
      eventOf c task r' := by
    rw [hcommand]
    rfl
  simp only [advance, hevent] at hstep
  cases hstep
  refine .inl ⟨busy_goto _ cpu _, h.goto hinv hp rfl (.refl s _) rfl rfl (.inl rfl) hmember ?_⟩
  exact .filled c ring task serial r' hgone hroom hslow htemp

theorem tracks_filled (h : Tracks ro s m pending) (hinv : Inv s) {free serial : ℕ}
    {c : DiagContext} {ring : Fill} {task : RpcTask} {r : NfsPartialEvent}
    (hp : s.running.lookup cpu = some (.filled ring task (eventOf c task r) serial))
    (hgone : s.index.lookup task.addr = none) (hroom : ring.room = true)
    (hslow : ¬ c.ktime - r.startNs < ro.minLatNs) (htemp : m.temp.lookup task.addr = some r)
    (hstep : advance ro s cpu free (.filled ring task (eventOf c task r) serial) = some u) :
    Advanced ro m pending cpu (.rpcExitTask c ring task) u := by
  simp only [advance] at hstep
  cases hstep
  have hcompletion : completion ro c ring task r =
      some ⟨eventOf c task r, getFlags ro.wakeupDataSize ring.availAtSubmit⟩ := by
    rw [completion, if_neg hslow, submitEvent, hroom]
    rfl
  set submission : Submission :=
    ⟨eventOf c task r, getFlags ro.wakeupDataSize ring.availAtSubmit⟩
  have hsubmissions : (s.submit submission serial).submissions.map Prod.fst =
      m.submissions ++ (completion ro c ring task r).toList := by
    rw [hcompletion, State.submit, List.map_append, h.submissions]
    rfl
  exact h.ends_exit (u := s.submit submission serial) hinv hp rfl
    (touches_submit s submission serial _) hgone htemp hsubmissions

/-- A step of a probe, one case for each place where it can stand. -/
theorem tracks_advance (h : Tracks ro s m pending) (hinv : Inv s) {slot : ℕ}
    (hp : s.running.lookup cpu = some p) (hmember : (cpu, probe) ∈ pending)
    (hstands : Stands ro s m probe p) (hstep : advance ro s cpu slot p = some u) :
    Advanced ro m pending cpu probe u := by
  cases hstands with
  | entering c room task =>
      simp only [advance] at hstep
      split at hstep
      next hdenied =>
          cases hstep
          rw [h.denied_eq] at hdenied
          exact h.ends_idle hinv hp rfl (by rw [fire, probeEntry, if_pos hdenied])
      next hallowed =>
          cases hstep
          rw [h.denied_eq, Bool.not_eq_true] at hallowed
          exact h.goes_on hinv hp rfl rfl hmember (.storing c room task hallowed)
  | storing c room task hallowed => exact tracks_storing h hinv hp hallowed hstep
  | exiting c ring task =>
      simp only [advance] at hstep
      split at hstep
      next hnone =>
          cases hstep
          have hrecords : recordAt s task.addr = m.temp.lookup task.addr :=
            h.records_eq hinv hp rfl
          rw [recordAt, hnone, Option.map_none] at hrecords
          exact h.ends_idle hinv hp rfl (by rw [fire, probeExit, ← hrecords])
      next found _ =>
          cases hstep
          exact h.goes_on hinv hp rfl rfl hmember (.found c ring task found)
  | found c ring task found =>
      cases hstep
      exact h.goes_on hinv hp rfl rfl hmember (.timed c ring task found _ _)
  | timed c ring task slot latency serial => exact tracks_timed h hinv hp hmember hstep
  | deleted c ring task slot latency serial r hgone hslow hr htemp =>
      exact tracks_deleted h hinv hp hmember hgone hslow hr htemp hstep
  | reserved c ring task slot latency serial r hgone hslow hr htemp =>
      exact tracks_reserved h hinv hp hmember hgone hslow hr htemp hstep
  | filled c ring task serial r hgone hroom hslow htemp =>
      exact tracks_filled h hinv hp hgone hroom hslow htemp hstep

end Steps

theorem running_advance {ro : Rodata} {s u : State} {cpu slot : ℕ} {p : Phase}
    (hstep : advance ro s cpu slot p = some u) {other : ℕ} (hne : other ≠ cpu) :
    u.running.lookup other = s.running.lookup other := by
  have hgoto : ∀ (v : State) (q : Phase), v.running = s.running →
      (v.goto cpu q).running.lookup other = s.running.lookup other := by
    intro v q hv
    rw [State.goto, HashMap.lookup_insert_eq, if_neg hne, hv]
  have hfinish : ∀ v : State, v.running = s.running →
      (v.finish cpu).running.lookup other = s.running.lookup other := by
    intro v hv
    rw [State.finish, HashMap.lookup_erase_eq, if_neg hne, hv]
  cases p <;> simp only [advance] at hstep
  case found | reserved | filled =>
    cases hstep
    first | exact hgoto _ _ rfl | exact hfinish _ rfl
  case storing =>
    split at hstep
    · cases hstep
      exact hfinish _ rfl
    · split at hstep
      · cases hstep
      · cases hstep
        exact hfinish _ rfl
  all_goals
    split at hstep <;> cases hstep
    all_goals first | exact hgoto _ _ rfl | exact hfinish _ rfl

theorem tracks_start {ro : Rodata} {s : State} {m : Maps} {pending : List (ℕ × Firing)}
    (h : Tracks ro s m pending) (hinv : Inv s) {cpu : ℕ} {probe : Firing}
    (hidle : s.running.lookup cpu = none) (hbusy : ¬ s.Busy (Phase.start probe).task) :
    Tracks ro (s.goto cpu (Phase.start probe)) m ((cpu, probe) :: pending) where
  denylist := h.denylist
  submissions := h.submissions
  records key hkey := by
    refine h.records key fun other p hp hpast => hkey other p ?_ hpast
    have hne : other ≠ cpu := by
      rintro rfl
      rw [hidle] at hp
      cases hp
    rw [State.goto, HashMap.lookup_insert_eq, if_neg hne, hp]
  stands other p hp := by
    rw [State.goto, HashMap.lookup_insert_eq] at hp
    split at hp
    next heq =>
        cases hp
        refine ⟨probe, heq ▸ List.mem_cons_self, ?_⟩
        cases probe with
        | nfs4SetupSequence c room task => exact .entering c room task
        | rpcExitTask c ring task => exact .exiting c ring task
    next hne =>
        obtain ⟨probe', hmember, hstands⟩ := h.stands other p hp
        have haddr := (hinv.others_of_not_busy hbusy cpu).addr_ne other p hne hp
        exact ⟨probe', List.mem_cons_of_mem _ hmember,
          hstands.frame ((Touches.refl s _).goto cpu _) (.refl m _) haddr⟩
  running x hx := by
    rcases List.mem_cons.mp hx with rfl | hx
    · exact busy_goto s cpu _
    · have hrunning := h.running x hx
      unfold busy at hrunning ⊢
      rw [State.goto, HashMap.lookup_insert_eq]
      split
      · rfl
      · exact hrunning
  nodup := by
    refine List.nodup_cons.mpr ⟨fun hmem => ?_, h.nodup⟩
    obtain ⟨x, hx, hcpu⟩ := List.mem_map.mp hmem
    have hrunning := h.running x hx
    rw [hcpu, busy, hidle] at hrunning
    cases hrunning

theorem tracks_step {ro : Rodata} {s u : State} {m : Maps} {t : History Firing} {move : Move}
    (h : Tracks ro s m t.pending) (hinv : Inv s) (hstep : step ro s move = some u) :
    Tracks ro u ((t.ended (begins move) (busy u)).foldl (fire ro) m)
      (t.next (begins move) (busy u)).pending := by
  cases move with
  | start cpu probe =>
      simp only [step] at hstep
      split at hstep
      next => cases hstep
      next hidle =>
          cases hstep
          obtain ⟨hcpu, hbusy⟩ := not_or.mp hidle
          have hstarted := tracks_start h hinv (Option.not_isSome_iff_eq_none.mp hcpu) hbusy
          rw [History.ended_eq_nil hstarted.running, History.next_pending hstarted.running]
          exact hstarted
  | advance cpu slot =>
      obtain ⟨p, hp, hadvance⟩ := Option.bind_eq_some_iff.mp hstep
      obtain ⟨probe, hmember, hstands⟩ := h.stands cpu p hp
      rcases tracks_advance h hinv hp hmember hstands hadvance with ⟨-, hon⟩ | ⟨hfree, hended⟩
      · rw [History.ended_eq_nil hon.running, History.next_pending hon.running]
        exact hon
      · have hothers : ∀ x ∈ t.pending, x.1 ≠ cpu → busy u x.1 = true := fun x hx hne => by
          rw [busy, running_advance hadvance hne]
          exact h.running x hx
        rw [begins, History.ended_eq_single h.nodup hmember hfree hothers]
        exact hended

/-- The probes of a run in the order in which they finish, and those that still run. -/
def historyOf (ro : Rodata) (denylist : HashMap UInt16 UInt8) (moves : List Move) :
    History Firing :=
  history (step ro) begins busy (State.fresh denylist) (.empty Firing) moves

structure Linearized (ro : Rodata) (denylist : HashMap UInt16 UInt8) (moves : List Move)
    (s : State) : Prop where
  /-- Every probe that started is in the history once. -/
  once : (historyOf ro denylist moves).all.Perm
    (moves.filterMap fun move => (begins move).map Prod.snd)
  submissions : s.submissions.map Prod.fst =
    ((historyOf ro denylist moves).finished.foldl (fire ro) (Maps.fresh denylist)).submissions
  /-- When no probe runs any more, all are finished, and the table holds what the maps hold. -/
  quiet : (∀ cpu, s.running.lookup cpu = none) → (historyOf ro denylist moves).pending = [] ∧
    ∀ key, recordAt s key = ((historyOf ro denylist moves).finished.foldl (fire ro)
      (Maps.fresh denylist)).temp.lookup key

/-- Every run in which no awaited command is overwritten is one of whole probes. -/
theorem linearized (ro : Rodata) (denylist : HashMap UInt16 UInt8) (moves : List Move)
    (s : State) (hrun : run (step ro) (State.fresh denylist) moves = some s)
    (hkept : Along (step ro) NotOverwritten (State.fresh denylist) moves) :
    Linearized ro denylist moves s := by
  have hstep : ∀ s m (t : History Firing) move u, (Tracks ro s m t.pending ∧ Inv s) →
      NotOverwritten s move → step ro s move = some u →
      Tracks ro u ((t.ended (begins move) (busy u)).foldl (fire ro) m)
        (t.next (begins move) (busy u)).pending ∧ Inv u := fun s m t move u h hkept hstep =>
    ⟨tracks_step h.1 h.2 hstep, inv_step h.2 hkept hstep⟩
  obtain ⟨htracks, -⟩ := @history_simulates State Move Firing Maps (step ro) begins busy (fire ro)
    NotOverwritten (fun s m pending => Tracks ro s m pending ∧ Inv s) hstep _ s
    (Maps.fresh denylist) moves (.empty Firing) hrun hkept
    ⟨tracks_fresh ro denylist, inv_fresh denylist⟩
  refine ⟨history_perm hrun _, htracks.submissions, fun hquiet => ⟨?_, fun key => ?_⟩⟩
  · refine List.eq_nil_iff_forall_not_mem.mpr fun x hx => ?_
    have hbusy := htracks.running x hx
    rw [busy, hquiet] at hbusy
    cases hbusy
  · refine htracks.records key fun cpu p hp => ?_
    rw [hquiet] at hp
    cases hp

/-- Two requests start and end on two processors, each probe between the steps of another. -/
def crossed : List Move :=
  let first : RpcTask := ⟨0x7000, 5, 0⟩
  let second : RpcTask := ⟨0x8000, 9, 0⟩
  [.start 0 (.nfs4SetupSequence ⟨0, Buffer.zero 16, 100⟩ true first),
    .start 1 (.nfs4SetupSequence ⟨0, Buffer.zero 16, 110⟩ true second), .advance 0 0, .advance 1 0,
    .advance 1 4, .advance 0 3, .start 0 (.rpcExitTask ⟨0, Buffer.zero 16, 900⟩ ⟨true, 0, 0⟩ first),
    .advance 0 0, .start 1 (.rpcExitTask ⟨0, Buffer.zero 16, 910⟩ ⟨true, 0, 0⟩ second)] ++
    List.replicate 4 (.advance 1 0) ++ List.replicate 4 (.advance 0 0) ++
    List.replicate 2 (.advance 1 0) ++ [.advance 0 0]

theorem linearized_crossed : ∃ s, run (step ⟨0, 0⟩) (State.fresh ∅) crossed = some s ∧
    s.submissions.map (fun e => e.1.event.command) = [9, 5] ∧
    Linearized ⟨0, 0⟩ ∅ crossed s := by
  have hends : ((run (step ⟨0, 0⟩) (State.fresh ∅) crossed).map fun s =>
      s.submissions.map fun e => e.1.event.command) = some [9, 5] := by decide +kernel
  have hkept : Along (step ⟨0, 0⟩) NotOverwritten (State.fresh ∅) crossed := by decide +kernel
  obtain ⟨s, hrun, hcommands⟩ := Option.map_eq_some_iff.mp hends
  exact ⟨s, hrun, hcommands, linearized _ _ _ _ hrun hkept⟩

end MonitoringTools.NfsslowerHistories
