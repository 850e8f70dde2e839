import Mathlib.Algebra.Order.Ring.Int
import MonitoringTools.RecordRing

/-!
# Producers that wait for a given amount of data

Each producer has a size of its own: at zero it asks for adaptive wakeups, otherwise it
forces one as soon as that much is unread and asks for none before. Whether producers with
given sizes can lose the consumer is decided by comparing the sizes with a record and with
what the ring holds.
-/
namespace MonitoringTools.WakeupThresholds
open RecordRing Runs

variable {P E : Type*} {c : Config P} {w : P → ℤ}

theorem succ_mul_le_most {k : ℕ} (hk : k < c.capacity / c.size) :
    k * c.size + c.size ≤ c.most := by
  rw [← Nat.succ_mul]
  exact Nat.mul_le_mul_right _ hk

variable [DecidableEq P]

/-- A producer with a size of zero asks for adaptive wakeups, any other forces one as soon
as that much is unread. -/
def threshold (w : P → ℤ) (p : P) (a : ℕ) : Notify :=
  if w p = 0 then .adaptive else if w p ≤ a then .force else .no

/-- Producers that live together without losing the consumer: nobody waits for more than
the ring holds, and where somebody asks for adaptive wakeups nobody waits for more than a
record. -/
structure Compatible (c : Config P) (w : P → ℤ) : Prop where
  reachable : ∀ p, c.Live p → w p ≤ c.most
  alike : (∃ q, c.Live q ∧ w q = 0) → ∀ p, c.Live p → w p ≤ c.size

/-- Compatible producers never leave the ring stuck. -/
theorem not_stuck_of_compatible (hsize : 0 < c.size) (hfits : c.size ≤ c.capacity)
    (hnotify : ∀ p, c.Live p → ∀ a ≤ c.capacity, c.notify p a = threshold w p a)
    (h : Compatible c w) {ms : List (Move P E)} {r : Records P E}
    (hrun : run (step c) Records.empty ms = some r) : ¬ r.Stuck c := by
  intro hstuck
  by_cases hadaptive : ∃ q, c.Live q ∧ w q = 0
  · have hprompt : ∀ p, c.Live p → ∀ a ≤ c.capacity, c.size ≤ a → c.notify p a ≠ .no := by
      intro p hp a hfit ha
      rw [hnotify p hp a hfit, threshold]
      split
      · exact Notify.noConfusion
      · rw [if_pos ((h.alike hadaptive p hp).trans (by exact_mod_cast ha))]
        exact Notify.noConfusion
    have hslots := run_slots_nil hprompt hrun hstuck.idle hstuck.asleep
    have hfull := hstuck.full
    simp only [Records.Full, Records.unread, hslots, List.length_nil, Nat.zero_mul,
      Nat.zero_add] at hfull
    exact absurd hfits (Nat.not_le.mpr hfull)
  · have hmost : 0 < c.most := Nat.mul_pos (Nat.div_pos hfits hsize) hsize
    have hforce : ∀ p, c.Live p → ∀ a ≤ c.capacity, c.most ≤ a → c.notify p a = .force := by
      intro p hp a hfit ha
      have hne : w p ≠ 0 := fun hzero => hadaptive ⟨p, hp, hzero⟩
      rw [hnotify p hp a hfit, threshold, if_neg hne,
        if_pos ((h.reachable p hp).trans (by exact_mod_cast ha))]
    have hless := run_unread_lt hmost hforce hrun hstuck.idle hstuck.asleep
    exact Records.not_full_of_unread_lt hless hstuck.full

/-- A producer that gets a record and submits it. -/
def round (c : Config P) (p : P) (e : E) (a : ℕ) : List (Move P E) :=
  [.reserve p e, .query p, .submit p (c.notify p a)]

/-- The producer asks not to wake the consumer, or would wake it only for the first record. -/
def Silent (c : Config P) (p : P) (unread : ℕ) : Prop :=
  c.notify p (unread + c.size) = .no ∨ (c.notify p (unread + c.size) = .adaptive ∧ unread ≠ 0)

theorem wakes_silent {r : Records P E} (h : r.Idle) (p : P) (e : E)
    (hsilent : Silent c p (r.unread c)) :
    wakes (r.slots ++ [.busy p e (some (c.notify p (r.unread c + c.size)))]) p
      (c.notify p (r.unread c + c.size)) = false := by
  rcases hsilent with hno | ⟨hadaptive, hunread⟩
  · rw [hno]
    rfl
  · rw [hadaptive]
    cases hslots : r.slots with
    | nil => exact absurd (by simp [Records.unread, hslots]) hunread
    | cons s rest =>
        cases s with
        | busy q f a => exact absurd (hslots ▸ List.mem_cons_self) h.not_busy
        | ready f => rfl

theorem run_round {r : Records P E} (h : r.Idle) {p : P} (e : E)
    (hadmits : c.admits p (r.unread c) = true) (hroom : r.unread c + c.size ≤ c.capacity)
    (hsilent : Silent c p (r.unread c)) :
    run (step c) r (round c p e (r.unread c + c.size)) =
      some {r with slots := r.slots ++ [.ready e], accepted := r.accepted ++ [e]} := by
  have hunread : (r.slots ++ [Slot.busy p e none]).length * c.size = r.unread c + c.size := by
    rw [List.length_append, List.length_singleton, Nat.succ_mul, Records.unread]
  have hquiet := wakes_silent h p e hsilent
  set n := c.notify p (r.unread c + c.size) with hn
  have hreserve : step c r (.reserve p e) =
      some {r with slots := r.slots ++ [.busy p e none], accepted := r.accepted ++ [e]} := by
    rw [step, h.any_busyOf p, if_neg Bool.false_ne_true, if_pos ⟨hadmits, hroom⟩]
  have hquery : step c {r with
        slots := r.slots ++ [.busy p e none], accepted := r.accepted ++ [e]} (.query p) =
      some {r with slots := r.slots ++ [.busy p e (some n)], accepted := r.accepted ++ [e]} := by
    have hasks : (r.slots ++ [Slot.busy p e none]).any (·.asks p none) = true := by
      simp [Slot.asks]
    have hflag : (r.slots ++ [Slot.busy p e none]).map (Slot.flag p n) =
        r.slots ++ [.busy p e (some n)] := by
      rw [List.map_append, h.map_flag p, List.map_singleton, flag_own]
    simp only [step, if_pos hasks, Records.unread]
    rw [hunread, ← hn, hflag]
  have hsubmit : step c {r with
        slots := r.slots ++ [.busy p e (some n)], accepted := r.accepted ++ [e]} (.submit p n) =
      some {r with slots := r.slots ++ [.ready e], accepted := r.accepted ++ [e]} := by
    simp [step, Slot.asks, h.map_commit p, Slot.commit, hquiet]
  rw [round, run_cons, hreserve, Option.bind_some, run_cons, hquery, Option.bind_some, run_cons,
    hsubmit]
  rfl

/-- Idle with a sleeping consumer and so many records unread, after some run. -/
def Piled (c : Config P) (E : Type*) (n : ℕ) : Prop :=
  ∃ (ms : List (Move P E)) (r : Records P E), run (step c) Records.empty ms = some r ∧ r.Idle ∧
    r.notified = false ∧ r.slots.length = n

theorem piled_zero : Piled c E 0 :=
  ⟨[], Records.empty, rfl, fun _ hs => absurd hs List.not_mem_nil, rfl, rfl⟩

theorem Piled.succ [Nonempty E] {n : ℕ} (h : Piled c E n) {p : P}
    (hadmits : c.admits p (n * c.size) = true) (hroom : (n + 1) * c.size ≤ c.capacity)
    (hsilent : Silent c p (n * c.size)) : Piled c E (n + 1) := by
  obtain ⟨ms, r, hrun, hidle, hasleep, rfl⟩ := h
  obtain ⟨e⟩ := ‹Nonempty E›
  rw [Nat.succ_mul] at hroom
  refine ⟨ms ++ round c p e (r.unread c + c.size),
    {r with slots := r.slots ++ [.ready e], accepted := r.accepted ++ [e]}, ?_, ?_, hasleep, ?_⟩
  · rw [run_append, hrun, Option.bind_some, run_round hidle e hadmits hroom hsilent]
  · intro s hs
    rcases List.mem_append.mp hs with hold | hnew
    · exact hidle s hold
    · rw [List.mem_singleton.mp hnew]
      rfl
  · exact List.length_append

/-- A producer that stays silent piles up records until the ring is full. -/
theorem Piled.fill [Nonempty E] {n m : ℕ} (h : Piled c E n) (hnm : n ≤ m) {p : P}
    (hadmits : ∀ a, c.admits p a = true) (hroom : m * c.size ≤ c.capacity)
    (hsilent : ∀ k, n ≤ k → k < m → Silent c p (k * c.size)) : Piled c E m := by
  induction hnm with
  | refl => exact h
  | @step m hle ih =>
      have hless : m * c.size ≤ c.capacity :=
        Nat.le_trans (Nat.mul_le_mul_right _ (Nat.le_succ m)) hroom
      have hbefore := ih hless fun k hk hkm => hsilent k hk (Nat.lt_succ_of_lt hkm)
      exact hbefore.succ (hadmits _) hroom (hsilent m hle (Nat.lt_succ_self m))

theorem Piled.stuck {n : ℕ} (hsize : 0 < c.size) (h : Piled c E n)
    (hn : n = c.capacity / c.size) : ∃ (ms : List (Move P E)) (r : Records P E),
      run (step c) Records.empty ms = some r ∧ r.Stuck c := by
  obtain ⟨ms, r, hrun, hidle, hasleep, rfl⟩ := h
  refine ⟨ms, r, hrun, hidle, hasleep, ?_⟩
  rw [Records.Full, Records.unread, hn]
  exact Nat.lt_div_mul_add hsize

/-- Producers with given sizes can leave the ring stuck exactly if they are incompatible. -/
theorem exists_stuck_iff [Nonempty E] (hsize : 0 < c.size) (hfits : c.size ≤ c.capacity)
    (hadmits : ∀ p, c.Live p → ∀ a, c.admits p a = true)
    (hnotify : ∀ p, c.Live p → ∀ a ≤ c.capacity, c.notify p a = threshold w p a) :
    (∃ (ms : List (Move P E)) (r : Records P E),
      run (step c) Records.empty ms = some r ∧ r.Stuck c) ↔ ¬ Compatible c w := by
  have hmost : c.capacity / c.size * c.size ≤ c.capacity := Nat.div_mul_le_self _ _
  constructor
  · rintro ⟨ms, r, hrun, hstuck⟩ hcompatible
    exact not_stuck_of_compatible hsize hfits hnotify hcompatible hrun hstuck
  · intro hnot
    by_cases hreachable : ∀ p, c.Live p → w p ≤ c.most
    · -- a batching producer puts one record before those of an adaptive one
      obtain ⟨⟨q, hq, hzero⟩, p, hp, hbatch⟩ : (∃ q, c.Live q ∧ w q = 0) ∧
          ∃ p, c.Live p ∧ (c.size : ℤ) < w p := by
        by_contra hnone
        refine hnot ⟨hreachable, fun hadaptive p hp => ?_⟩
        by_contra hmore
        exact hnone ⟨hadaptive, p, hp, not_le.mp hmore⟩
      have hone : 1 ≤ c.capacity / c.size := Nat.div_pos hfits hsize
      have hfirst : Silent c p (0 * c.size) := by
        refine .inl ?_
        rw [hnotify p hp _ (by omega), threshold, if_neg (by omega), if_neg]
        push_cast
        omega
      have hpiled : Piled c E 1 :=
        piled_zero.succ (hadmits p hp _) (by rwa [Nat.zero_add, Nat.one_mul]) hfirst
      refine (hpiled.fill hone (hadmits q hq) hmost fun k hk hkm => .inr ⟨?_, ?_⟩).stuck hsize rfl
      · rw [hnotify q hq _ (Nat.le_trans (succ_mul_le_most hkm) hmost), threshold, if_pos hzero]
      · exact (Nat.mul_pos hk hsize).ne'
    · obtain ⟨p, hp, hmore⟩ : ∃ p, c.Live p ∧ (c.most : ℤ) < w p := by
        simpa only [not_forall, not_le, exists_prop] using hreachable
      refine (piled_zero.fill (Nat.zero_le _) (hadmits p hp) hmost fun k _ hk => .inl ?_).stuck
        hsize rfl
      have hbelow : ((k * c.size + c.size : ℕ) : ℤ) < w p :=
        (Int.ofNat_le.mpr (succ_mul_le_most hk)).trans_lt hmore
      rw [hnotify p hp _ (Nat.le_trans (succ_mul_le_most hk) hmost), threshold,
        if_neg (by omega), if_neg (not_le.mpr hbelow)]

end MonitoringTools.WakeupThresholds
