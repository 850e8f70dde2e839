import Mathlib.Data.List.Basic
import MonitoringTools.Runs

/-!
# A ring of records and its wakeups

Producers reserve a record at the end of the ring, ask how much is unread, and submit the
record together with a request: to notify the consumer, not to, or to notify it only if it
waits for this very record. The consumer sleeps until it is notified, takes submitted
records from the front and falls asleep again when nothing is left. All records are of one
size, and the ring holds a bounded amount of data; unread data counts from its reservation.
-/
namespace MonitoringTools.RecordRing
open Runs

/-- What a producer asks for when it submits. -/
inductive Notify where
  | adaptive
  | force
  | no
  deriving DecidableEq, Repr

/-- A record in flight, with its request once the producer has made up its mind, or a
submitted one. -/
inductive Slot (P E : Type*) where
  | busy (p : P) (e : E) (asked : Option Notify)
  | ready (e : E)
  deriving DecidableEq

/-- The unread records in the order of their reservation, what was ever reserved and what
the consumer took, and whether it is awake. -/
structure Records (P E : Type*) where
  slots : List (Slot P E)
  accepted : List E
  taken : List E
  notified : Bool
  deriving DecidableEq

/-- Sizes in bytes, and how the producers behave at a given amount of unread data. -/
structure Config (P : Type*) where
  size : ℕ
  capacity : ℕ
  admits : P → ℕ → Bool
  notify : P → ℕ → Notify

/-- The largest amount of data that the ring ever holds. -/
def Config.most {P : Type*} (c : Config P) : ℕ := c.capacity / c.size * c.size

inductive Move (P E : Type*) where
  | reserve (p : P) (e : E)
  | query (p : P)
  | submit (p : P) (n : Notify)
  | attach
  | take
  | sleep
  deriving DecidableEq

section
variable {P E : Type*}

namespace Slot

def event : Slot P E → E
  | busy _ e _ => e
  | ready e => e

def submitted : Slot P E → Bool
  | busy .. => false
  | ready _ => true

variable [DecidableEq P]

def busyOf (p : P) : Slot P E → Bool
  | busy q _ _ => q = p
  | ready _ => false

def asks (p : P) (asked : Option Notify) : Slot P E → Bool
  | busy q _ a => q = p && a = asked
  | ready _ => false

def flag (p : P) (n : Notify) : Slot P E → Slot P E
  | busy q e none => if q = p then busy q e (some n) else busy q e none
  | s => s

def commit (p : P) (n : Notify) : Slot P E → Slot P E
  | busy q e a => if q = p ∧ a = some n then ready e else busy q e a
  | s => s

end Slot

namespace Records

def empty : Records P E := ⟨[], [], [], false⟩

def unread (c : Config P) (r : Records P E) : ℕ := r.slots.length * c.size

/-- No record is in flight. -/
def Idle (r : Records P E) : Prop := ∀ s ∈ r.slots, s.submitted = true

instance (r : Records P E) : Decidable r.Idle := inferInstanceAs (Decidable (∀ s ∈ r.slots, _))

/-- No room for another record. -/
def Full (c : Config P) (r : Records P E) : Prop := c.capacity < r.unread c + c.size

structure Stuck (c : Config P) (r : Records P E) : Prop where
  idle : r.Idle
  asleep : r.notified = false
  full : r.Full c

theorem Idle.not_busy {r : Records P E} (h : r.Idle) {p : P} {e : E} {a : Option Notify} :
    .busy p e a ∉ r.slots :=
  fun hbusy => Bool.noConfusion (h _ hbusy)

theorem not_full_of_unread_lt {c : Config P} {r : Records P E}
    (h : r.unread c < c.most) : ¬ r.Full c := by
  have hless : r.slots.length < c.capacity / c.size := Nat.lt_of_mul_lt_mul_right h
  have hroom : (r.slots.length + 1) * c.size ≤ c.capacity :=
    Nat.le_trans (Nat.mul_le_mul_right _ hless) (Nat.div_mul_le_self _ _)
  rw [Nat.succ_mul] at hroom
  exact Nat.not_lt.mpr hroom

end Records

/-- A producer that may get a record at all. -/
def Config.Live (c : Config P) (p : P) : Prop := ∃ a, c.admits p a = true

structure Records.Sane (c : Config P) (r : Records P E) : Prop where
  owners : ∀ p e a, .busy p e a ∈ r.slots → c.Live p
  fits : r.unread c ≤ c.capacity

theorem sane_empty {c : Config P} : (Records.empty : Records P E).Sane c :=
  ⟨fun _ _ _ hbusy => absurd hbusy List.not_mem_nil, by simp [Records.unread, Records.empty]⟩

variable [DecidableEq P]

/-- A forced submission wakes the consumer, an adaptive one if it is the next to be read. -/
def wakes (slots : List (Slot P E)) (p : P) : Notify → Bool
  | .force => true
  | .adaptive => slots.head?.any (·.asks p (some .adaptive))
  | .no => false

/-- A producer has one record in flight at a time, and gives up when it gets none. A
consumer that attaches finds out whether there is data. -/
def step (c : Config P) (r : Records P E) : Move P E → Option (Records P E)
  | .reserve p e =>
      if r.slots.any (·.busyOf p) then none
      else if c.admits p (r.unread c) ∧ r.unread c + c.size ≤ c.capacity then
        some {r with slots := r.slots ++ [.busy p e none], accepted := r.accepted ++ [e]}
      else some r
  | .query p =>
      if r.slots.any (·.asks p none) then
        some {r with slots := r.slots.map (Slot.flag p (c.notify p (r.unread c)))}
      else none
  | .submit p n =>
      if r.slots.any (·.asks p (some n)) then
        some {r with
          slots := r.slots.map (Slot.commit p n)
          notified := r.notified || wakes r.slots p n}
      else none
  | .attach => some {r with notified := !r.slots.isEmpty}
  | .take =>
      match r.notified, r.slots with
      | true, .ready e :: rest => some {r with slots := rest, taken := r.taken ++ [e]}
      | _, _ => none
  | .sleep => if r.notified ∧ r.slots = [] then some {r with notified := false} else none

/-- What a step can do. -/
inductive Stepped (c : Config P) (r : Records P E) : Move P E → Records P E → Prop
  | refused (p : P) (e : E) : Stepped c r (.reserve p e) r
  | reserved (p : P) (e : E) : c.admits p (r.unread c) = true →
      r.unread c + c.size ≤ c.capacity →
      Stepped c r (.reserve p e)
        {r with slots := r.slots ++ [.busy p e none], accepted := r.accepted ++ [e]}
  | queried (p : P) (e : E) : .busy p e none ∈ r.slots →
      Stepped c r (.query p) {r with slots := r.slots.map (Slot.flag p (c.notify p (r.unread c)))}
  | submitted (p : P) (e : E) (n : Notify) : .busy p e (some n) ∈ r.slots →
      Stepped c r (.submit p n)
        {r with
          slots := r.slots.map (Slot.commit p n)
          notified := r.notified || wakes r.slots p n}
  | attached : Stepped c r .attach {r with notified := !r.slots.isEmpty}
  | took (e : E) (rest : List (Slot P E)) : r.notified = true → r.slots = .ready e :: rest →
      Stepped c r .take {r with slots := rest, taken := r.taken ++ [e]}
  | slept : r.slots = [] → Stepped c r .sleep {r with notified := false}

theorem exists_busy {slots : List (Slot P E)} {p : P} {asked : Option Notify}
    (h : slots.any (·.asks p asked) = true) : ∃ e, .busy p e asked ∈ slots := by
  obtain ⟨s, hs, hasks⟩ := List.any_eq_true.mp h
  cases s with
  | busy q e a =>
      obtain ⟨rfl, rfl⟩ : q = p ∧ a = asked := by simpa [Slot.asks] using hasks
      exact ⟨e, hs⟩
  | ready e => cases hasks

theorem step_stepped {c : Config P} {r r' : Records P E} {m : Move P E}
    (h : step c r m = some r') : Stepped c r m r' := by
  cases m with
  | reserve p e =>
      simp only [step] at h
      split at h
      · cases h
      · split at h
        next hroom =>
            cases h
            exact .reserved p e hroom.1 hroom.2
        next =>
            cases h
            exact .refused p e
  | query p =>
      obtain ⟨hbusy, ⟨⟩⟩ := Option.ite_none_right_eq_some.mp h
      obtain ⟨e, he⟩ := exists_busy hbusy
      exact .queried p e he
  | submit p n =>
      obtain ⟨hbusy, ⟨⟩⟩ := Option.ite_none_right_eq_some.mp h
      obtain ⟨e, he⟩ := exists_busy hbusy
      exact .submitted p e n he
  | attach =>
      cases h
      exact .attached
  | take =>
      simp only [step] at h
      split at h
      next hnotified hslots =>
          cases h
          exact .took _ _ hnotified hslots
      next => cases h
  | sleep =>
      obtain ⟨hempty, ⟨⟩⟩ := Option.ite_none_right_eq_some.mp h
      exact .slept hempty.2

@[simp] theorem event_flag (p : P) (n : Notify) (s : Slot P E) :
    (s.flag p n).event = s.event := by
  unfold Slot.flag
  split
  · split <;> rfl
  · rfl

@[simp] theorem event_commit (p : P) (n : Notify) (s : Slot P E) :
    (s.commit p n).event = s.event := by
  unfold Slot.commit
  split
  · split <;> rfl
  · rfl

theorem flag_of_asked (p : P) (n : Notify) (q : P) (e : E) (a : Notify) :
    Slot.flag p n (.busy q e (some a)) = .busy q e (some a) := rfl

theorem flag_own (p : P) (n : Notify) (e : E) :
    Slot.flag p n (.busy p e none) = .busy p e (some n) := if_pos rfl

theorem commit_of_ne {p q : P} {n : Notify} {a : Option Notify} (e : E) (h : a ≠ some n) :
    Slot.commit p n (.busy q e a) = .busy q e a := if_neg fun hboth => h hboth.2

theorem busy_of_flag {slots : List (Slot P E)} {p q : P} {n : Notify} {e : E}
    {a : Option Notify} (h : .busy q e a ∈ slots.map (Slot.flag p n)) :
    .busy q e a ∈ slots ∨ (q = p ∧ a = some n ∧ .busy p e none ∈ slots) := by
  obtain ⟨s, hs, heq⟩ := List.mem_map.mp h
  cases s with
  | ready e' => cases heq
  | busy q' e' a' =>
      cases a' with
      | some m =>
          rw [flag_of_asked] at heq
          exact .inl (heq ▸ hs)
      | none =>
          simp only [Slot.flag] at heq
          split at heq
          next hown =>
              cases heq
              exact .inr ⟨hown, rfl, hown ▸ hs⟩
          next => exact .inl (heq ▸ hs)

theorem busy_of_commit {slots : List (Slot P E)} {p q : P} {n : Notify} {e : E}
    {a : Option Notify} (h : .busy q e a ∈ slots.map (Slot.commit p n)) :
    .busy q e a ∈ slots := by
  obtain ⟨s, hs, heq⟩ := List.mem_map.mp h
  cases s with
  | ready e' => cases heq
  | busy q' e' a' =>
      simp only [Slot.commit] at heq
      split at heq
      · cases heq
      · exact heq ▸ hs

theorem step_sane {c : Config P} {r r' : Records P E} {m : Move P E} (h : r.Sane c)
    (hstep : step c r m = some r') : r'.Sane c := by
  cases step_stepped hstep with
  | refused p e => exact h
  | reserved p e hadmits hroom =>
      refine ⟨fun q f a hbusy => ?_, ?_⟩
      · rcases List.mem_append.mp hbusy with hold | hnew
        · exact h.owners q f a hold
        · cases List.mem_singleton.mp hnew
          exact ⟨_, hadmits⟩
      · rw [Records.unread, List.length_append, List.length_singleton, Nat.succ_mul]
        exact hroom
  | queried p e he =>
      refine ⟨fun q f a hbusy => ?_, by simpa [Records.unread] using h.fits⟩
      rcases busy_of_flag hbusy with hold | ⟨rfl, -, hold⟩
      · exact h.owners q f a hold
      · exact h.owners q f none hold
  | submitted p e n he =>
      exact ⟨fun q f a hbusy => h.owners q f a (busy_of_commit hbusy),
        by simpa [Records.unread] using h.fits⟩
  | attached => exact ⟨h.owners, h.fits⟩
  | took e rest hnotified hslots =>
      refine ⟨fun q f a hbusy => h.owners q f a (hslots ▸ List.mem_cons_of_mem _ hbusy), ?_⟩
      refine Nat.le_trans (Nat.mul_le_mul_right _ ?_) h.fits
      rw [hslots]
      exact Nat.le_succ _
  | slept hslots => exact ⟨h.owners, h.fits⟩

/-- While the consumer sleeps, little is unread or somebody is about to wake it. -/
def Records.Watched (c : Config P) (w : ℕ) (r : Records P E) : Prop :=
  r.notified = false → r.unread c < w ∨
    ∃ p e a, .busy p e a ∈ r.slots ∧ (a = none ∨ a = some .force)

theorem step_watched {c : Config P} {w : ℕ} (hw : 0 < w)
    (hforce : ∀ p, c.Live p → ∀ a ≤ c.capacity, w ≤ a → c.notify p a = .force)
    {r r' : Records P E} {m : Move P E} (hsane : r.Sane c) (h : r.Watched c w)
    (hstep : step c r m = some r') : r'.Watched c w := by
  intro hasleep
  cases step_stepped hstep with
  | refused p e => exact h hasleep
  | reserved p e =>
      exact .inr ⟨p, e, none, List.mem_append_right _ (List.mem_singleton_self _), .inl rfl⟩
  | queried p e he =>
      rcases Nat.lt_or_ge (r.unread c) w with hless | hmuch
      · exact .inl (by simpa [Records.unread] using hless)
      · refine .inr ⟨p, e, some .force, ?_, .inr rfl⟩
        rw [← hforce p (hsane.owners p e none he) _ hsane.fits hmuch, ← flag_own]
        exact List.mem_map_of_mem he
  | submitted p e n he =>
      obtain ⟨hbefore, hquiet⟩ := Bool.or_eq_false_iff.mp hasleep
      rcases h hbefore with hless | ⟨q, f, a, hq, ha⟩
      · exact .inl (by simpa [Records.unread] using hless)
      · have hne : a ≠ some n := by
          rcases ha with rfl | rfl
          · exact Option.some_ne_none n |>.symm
          · rintro ⟨⟩
            exact Bool.noConfusion hquiet
        refine .inr ⟨q, f, a, ?_, ha⟩
        rw [← @commit_of_ne P E _ p q n a f hne]
        exact List.mem_map_of_mem hq
  | attached =>
      have hslots : r.slots = [] := by simpa using hasleep
      exact .inl (by simpa [Records.unread, hslots] using hw)
  | took e rest hnotified hslots => exact absurd (hasleep.symm.trans hnotified) Bool.false_ne_true
  | slept hslots => exact .inl (by simpa [Records.unread, hslots] using hw)

/-- Requests of the producers in flight while the consumer sleeps: none waits for its own
record, and whoever is about to wake the consumer saw enough unread data. -/
def Records.Batched (c : Config P) (w : ℕ) (r : Records P E) : Prop :=
  ∀ p e n, .busy p e (some n) ∈ r.slots →
    n ≠ .adaptive ∧ (r.notified = false → n = .force → w ≤ r.unread c)

theorem Records.Batched.wakes {c : Config P} {w : ℕ} {r r' : Records P E} {m : Move P E}
    (h : r.Batched c w) (hstep : step c r m = some r') (hasleep : r.notified = false)
    (hawake : r'.notified = true) (hm : m ≠ .attach) : w ≤ r'.unread c := by
  cases step_stepped hstep with
  | refused p e | reserved p e | queried p e =>
      exact absurd (hasleep.symm.trans hawake) Bool.false_ne_true
  | submitted p e n he =>
      simp only [Records.unread, List.length_map]
      obtain ⟨hadaptive, henough⟩ := h p e n he
      cases n with
      | adaptive => exact absurd rfl hadaptive
      | force => exact henough hasleep rfl
      | no =>
          have hquiet : (r.notified || RecordRing.wakes r.slots p .no) = false := by
            rw [hasleep]
            rfl
          exact absurd (hquiet.symm.trans hawake) Bool.false_ne_true
  | attached => exact absurd rfl hm
  | took e rest hnotified hslots => exact absurd (hasleep.symm.trans hnotified) Bool.false_ne_true
  | slept hslots => cases hawake

/-- No producer in flight asks to let the consumer sleep, and the record that a sleeping
consumer would read first is in flight. -/
structure Records.Prompt (r : Records P E) : Prop where
  asked : ∀ p e, .busy p e (some .no) ∉ r.slots
  head : r.notified = false → ∀ s ∈ r.slots.head?, s.submitted = false

theorem head_flag {slots : List (Slot P E)} {p : P} {n : Notify}
    (h : ∀ s ∈ slots.head?, s.submitted = false) :
    ∀ s ∈ (slots.map (Slot.flag p n)).head?, s.submitted = false := by
  cases slots with
  | nil => exact h
  | cons s rest =>
      intro t ht
      obtain rfl : s.flag p n = t := by simpa using ht
      cases s with
      | ready e => exact absurd (h _ rfl) Bool.noConfusion
      | busy q e a =>
          unfold Slot.flag
          split
          · split <;> rfl
          · rfl

theorem step_prompt {c : Config P}
    (hprompt : ∀ p, c.Live p → ∀ a ≤ c.capacity, c.size ≤ a → c.notify p a ≠ .no)
    {r r' : Records P E} {m : Move P E} (hsane : r.Sane c) (h : r.Prompt)
    (hstep : step c r m = some r') : r'.Prompt := by
  cases step_stepped hstep with
  | refused p e => exact h
  | reserved p e =>
      refine ⟨fun q f hbusy => ?_, fun hasleep => ?_⟩
      · rcases List.mem_append.mp hbusy with hold | hnew
        · exact h.asked q f hold
        · cases List.mem_singleton.mp hnew
      · cases hslots : r.slots with
        | nil => simp [Slot.submitted]
        | cons s rest => simpa [hslots] using h.head hasleep
  | queried p e he =>
      refine ⟨fun q f hbusy => ?_, fun hasleep => head_flag (h.head hasleep)⟩
      rcases busy_of_flag hbusy with hold | ⟨rfl, hn, hold⟩
      · exact h.asked q f hold
      · -- the record that asks is itself unread
        have hsize : c.size ≤ r.unread c :=
          Nat.le_mul_of_pos_left _ (List.length_pos_of_mem hold)
        exact hprompt q (hsane.owners q f none hold) _ hsane.fits hsize (Option.some.inj hn).symm
  | submitted p e n he =>
      refine ⟨fun q f hbusy => h.asked q f (busy_of_commit hbusy), fun hasleep => ?_⟩
      obtain ⟨hbefore, hquiet⟩ := Bool.or_eq_false_iff.mp hasleep
      have hhead := h.head hbefore
      cases hslots : r.slots with
      | nil => simp
      | cons s rest =>
          rw [hslots] at hhead hquiet
          cases s with
          | ready f => exact absurd (hhead _ rfl) Bool.noConfusion
          | busy q f a =>
              cases n with
              | force => cases hquiet
              | no => exact absurd he (h.asked p e)
              | adaptive =>
                  have hother : ¬ (q = p ∧ a = some .adaptive) := by
                    simpa [wakes, Slot.asks] using hquiet
                  simp [Slot.commit, hother, Slot.submitted]
  | attached =>
      refine ⟨h.asked, fun hasleep => ?_⟩
      have hslots : r.slots = [] := by simpa using hasleep
      simp [hslots]
  | took e rest hnotified hslots =>
      refine ⟨fun q f hbusy => h.asked q f (hslots ▸ List.mem_cons_of_mem _ hbusy),
        fun hasleep => ?_⟩
      exact absurd (hasleep.symm.trans hnotified) Bool.false_ne_true
  | slept hslots => exact ⟨h.asked, fun _ => by simp [hslots]⟩

/-- A stuck ring stays as it is until a consumer attaches. -/
theorem Records.Stuck.step {c : Config P} {r r' : Records P E} {m : Move P E} (h : r.Stuck c)
    (hm : m ≠ .attach) (hstep : step c r m = some r') : r' = r := by
  have hnobody : ∀ p e a, .busy p e a ∉ r.slots :=
    fun p e a hbusy => Bool.noConfusion (h.idle _ hbusy)
  cases step_stepped hstep with
  | refused p e => rfl
  | reserved p e hadmits hroom => exact absurd hroom (Nat.not_le.mpr h.full)
  | queried p e he => exact absurd he (hnobody p e none)
  | submitted p e n he => exact absurd he (hnobody p e (some n))
  | attached => exact absurd rfl hm
  | took e rest hnotified hslots => exact absurd (h.asleep.symm.trans hnotified) Bool.false_ne_true
  | slept hslots =>
      obtain ⟨slots, accepted, taken, notified⟩ := r
      cases h.asleep
      rfl

theorem Records.Stuck.run {c : Config P} {r r' : Records P E} {ms : List (Move P E)} (h : r.Stuck c)
    (hms : .attach ∉ ms) (hrun : Runs.run (RecordRing.step c) r ms = some r') :
    r' = r := by
  have hkept : r' = r ∧ r'.Stuck c :=
    @run_invariant _ _ _ (fun s => s = r ∧ s.Stuck c) (· ≠ .attach) _ _ _
      (fun s m u hs hm hstep => by
        obtain rfl := hs.2.step hm hstep
        exact hs)
      hrun ⟨rfl, h⟩ fun m hm heq => hms (heq ▸ hm)
  exact hkept.1

section Idle
variable {r : Records P E} (h : r.Idle) (p : P)
include h

theorem Records.Idle.any_busyOf : r.slots.any (·.busyOf p) = false := by
  refine List.any_eq_false.mpr fun s hs => ?_
  cases s with
  | busy q e a => exact absurd hs h.not_busy
  | ready e => exact Bool.false_ne_true

theorem Records.Idle.map_flag (n : Notify) : r.slots.map (Slot.flag p n) = r.slots := by
  refine (List.map_congr_left fun s hs => ?_).trans (List.map_id _)
  cases s with
  | busy q e a => exact absurd hs h.not_busy
  | ready e => rfl

theorem Records.Idle.map_commit (n : Notify) : r.slots.map (Slot.commit p n) = r.slots := by
  refine (List.map_congr_left fun s hs => ?_).trans (List.map_id _)
  cases s with
  | busy q e a => exact absurd hs h.not_busy
  | ready e => rfl

end Idle

section Reached
variable {c : Config P} {r : Records P E} {ms : List (Move P E)}

theorem run_sane {I : Records P E → Prop} (hempty : I Records.empty)
    (hstep : ∀ {r r' : Records P E} {m : Move P E}, r.Sane c → I r → step c r m = some r' → I r')
    (hrun : run (step c) Records.empty ms = some r) : r.Sane c ∧ I r :=
  @run_invariant _ _ _ (fun r => r.Sane c ∧ I r) (fun _ => True) _ _ _
    (fun _ _ _ h _ hs => ⟨step_sane h.1 hs, hstep h.1 h.2 hs⟩) hrun ⟨sane_empty, hempty⟩
    fun _ _ => trivial

/-- Where every producer forces a wakeup at `w` unread bytes, a consumer sleeps only on
less, unless a record is in flight. -/
theorem run_unread_lt {w : ℕ} (hw : 0 < w)
    (hforce : ∀ p, c.Live p → ∀ a ≤ c.capacity, w ≤ a → c.notify p a = .force)
    (hrun : run (step c) Records.empty ms = some r) (hidle : r.Idle)
    (hasleep : r.notified = false) : r.unread c < w := by
  have hwatched : r.Watched c w :=
    (run_sane (fun _ => .inl (by simpa [Records.unread, Records.empty] using hw))
      (step_watched hw hforce) hrun).2
  rcases hwatched hasleep with hless | ⟨p, e, a, hbusy, -⟩
  · exact hless
  · exact absurd hbusy hidle.not_busy

/-- Where no producer lets the consumer sleep over its own record, a consumer sleeps only
on an empty ring, unless a record is in flight. -/
theorem run_slots_nil (hprompt : ∀ p, c.Live p → ∀ a ≤ c.capacity, c.size ≤ a → c.notify p a ≠ .no)
    (hrun : run (step c) Records.empty ms = some r) (hidle : r.Idle)
    (hasleep : r.notified = false) : r.slots = [] := by
  have hready : r.Prompt :=
    (run_sane ⟨fun _ _ => List.not_mem_nil, fun _ _ hs => by cases hs⟩
      (step_prompt hprompt) hrun).2
  have hhead := hready.head hasleep
  cases hslots : r.slots with
  | nil => rfl
  | cons s rest =>
      rw [hslots] at hhead
      have hsubmitted := hidle s (hslots ▸ List.mem_cons_self)
      exact absurd ((hhead s rfl).symm.trans hsubmitted) Bool.false_ne_true

end Reached

end

end MonitoringTools.RecordRing
