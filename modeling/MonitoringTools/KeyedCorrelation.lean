import Mathlib.Data.List.Pairwise
import Mathlib.Logic.Function.Basic
import Mathlib.Logic.Relation

/-!
# Entry/exit correlation through a keyed record store

Operations open and close on threads, last opened first closed. An entry may
leave one record under a key computed from its thread and label; the exit of
an operation reads and erases whatever its key holds. The key may forget the
label, so two operations open on one thread can share it, and a record may be
overwritten or taken by the wrong exit.

The ledger is ghost data: it remembers what each entry stored, whether an
operation of the same key was opened inside it, and what each exit reported.
The main results say exactly when every exit reports its own record.
-/
namespace MonitoringTools.KeyedCorrelation

/-- How a tracer keys, times and reports its records. -/
structure Tracer (T L K R X E : Type*) where
  key : T → L → K
  key_thread : ∀ {t t' : T} {l l' : L}, key t l = key t' l' → t = t'
  time : X → ℕ
  start : R → ℕ
  due : R → ℕ → Bool
  due_mono : ∀ {r : R} {m n : ℕ}, start r ≤ m → m ≤ n → due r m = true → due r n = true
  report : R → X → E

/-- One opened operation. `nested` records that another operation with the
same key has been opened inside it. -/
structure Op (T L R : Type*) where
  thread : T
  label : L
  record : Option R
  nested : Bool
  deriving DecidableEq, Repr

structure Done (T L R X E : Type*) where
  op : Op T L R
  exit : X
  reported : List E
  deriving DecidableEq, Repr

/-- Open operations stand innermost first, closed ones latest first. -/
structure Ledger (T L R X E : Type*) where
  running : List (Op T L R)
  done : List (Done T L R X E)
  clock : ℕ
  deriving DecidableEq, Repr

structure State (T L K R X E : Type*) where
  store : K → Option R
  ledger : Ledger T L R X E

variable {T L K R X E : Type*}

def Ledger.empty : Ledger T L R X E := ⟨[], [], 0⟩

/-- The innermost operation open on a thread. -/
def Ledger.innermost [DecidableEq T] (l : Ledger T L R X E) (t : T) : Option (Op T L R) :=
  l.running.find? fun op => op.thread = t

namespace Tracer
variable (M : Tracer T L K R X E)

def keyOf (op : Op T L R) : K := M.key op.thread op.label

/-- What an exit reports for the record it found. -/
def emission (found : Option R) (x : X) : List E :=
  match found with
  | some r => if M.due r (M.time x) then [M.report r x] else []
  | none => []

/-- Every exit reported the record of its own operation's entry, or nothing
when that entry stored nothing or the record is not due. -/
def Exact (l : Ledger T L R X E) : Prop :=
  ∀ d ∈ l.done, d.reported = M.emission d.op.record d.exit

/-- No operation with a record has had an operation of its key opened inside
it and has meanwhile become due. -/
def Undisturbed (l : Ledger T L R X E) : Prop :=
  (∀ d ∈ l.done, ∀ r ∈ d.op.record, d.op.nested = true → M.due r (M.time d.exit) = false) ∧
  (∀ op ∈ l.running, ∀ r ∈ op.record, op.nested = true → M.due r l.clock = false)

theorem emission_none (x : X) : M.emission none x = [] := rfl

theorem emission_not_due {r : R} {x : X} (h : M.due r (M.time x) = false) :
    M.emission (some r) x = [] := by simp [emission, h]

theorem emission_due {r : R} {x : X} (h : M.due r (M.time x) = true) :
    M.emission (some r) x = [M.report r x] := by simp [emission, h]

theorem keyOf_ne_of_thread_ne {p q : Op T L R} (h : p.thread ≠ q.thread) :
    M.keyOf p ≠ M.keyOf q := fun he => h (M.key_thread he)

variable [DecidableEq K]

def mark (k : K) (op : Op T L R) : Op T L R :=
  if M.keyOf op = k then {op with nested := true} else op

def enterLedger (l : Ledger T L R X E) (t : T) (label : L) (record : Option R)
    (now : ℕ) : Ledger T L R X E where
  running := ⟨t, label, record, false⟩ :: l.running.map (M.mark (M.key t label))
  done := l.done
  clock := now

def leaveLedger [DecidableEq T] (l : Ledger T L R X E) (op : Op T L R) (x : X)
    (reported : List E) : Ledger T L R X E where
  running := l.running.eraseP fun p => p.thread = op.thread
  done := ⟨op, x, reported⟩ :: l.done
  clock := M.time x

def keep (store : K → Option R) (k : K) : Option R → K → Option R
  | some r => Function.update store k (some r)
  | none => store

/-- Any thread may move next; each closes its innermost operation only. -/
inductive Step [DecidableEq T] : State T L K R X E → State T L K R X E → Prop
  | enter {s : State T L K R X E} {t : T} {label : L} {record : Option R} {now : ℕ} :
      s.ledger.clock ≤ now → (∀ r ∈ record, M.start r ≤ now) →
      Step s ⟨keep s.store (M.key t label) record, M.enterLedger s.ledger t label record now⟩
  | leave {s : State T L K R X E} {t : T} {op : Op T L R} {x : X} :
      s.ledger.clock ≤ M.time x → s.ledger.innermost t = some op →
      Step s ⟨Function.update s.store (M.keyOf op) none,
        M.leaveLedger s.ledger op x (M.emission (s.store (M.keyOf op)) x)⟩

def Reachable [DecidableEq T] : State T L K R X E → Prop :=
  Relation.ReflTransGen M.Step ⟨fun _ => none, Ledger.empty⟩

@[simp] theorem keyOf_mark (k : K) (op : Op T L R) : M.keyOf (M.mark k op) = M.keyOf op := by
  unfold mark
  split <;> rfl

@[simp] theorem mark_record (k : K) (op : Op T L R) : (M.mark k op).record = op.record := by
  unfold mark
  split <;> rfl

theorem mark_nested {k : K} {op : Op T L R} (h : op.nested = true ∨ M.keyOf op = k) :
    (M.mark k op).nested = true := by
  unfold mark
  split
  · rfl
  · next hk => exact h.resolve_right hk

theorem mark_of_ne {k : K} {op : Op T L R} (h : M.keyOf op ≠ k) : M.mark k op = op :=
  if_neg h

theorem find?_of_find?_map_mark {k j : K} {running : List (Op T L R)} {op : Op T L R} (h : j ≠ k)
    (hop : (running.map (M.mark k)).find? (fun p => M.keyOf p = j) = some op) :
    running.find? (fun p => M.keyOf p = j) = some op := by
  rw [List.find?_map] at hop
  obtain ⟨p, hp, rfl⟩ := Option.map_eq_some_iff.mp hop
  have hpj : M.keyOf p = j := by simpa using List.find?_some hp
  rw [M.mark_of_ne (by rw [hpj]; exact h)]
  simpa [Function.comp_def] using hp

theorem keep_of_ne {store : K → Option R} {k j : K} (h : j ≠ k) (record : Option R) :
    keep store k record j = store j := by
  cases record with
  | none => rfl
  | some r => exact Function.update_of_ne h _ _

structure Inv (s : State T L K R X E) : Prop where
  owned : ∀ k r, s.store k = some r →
    ∃ op ∈ s.ledger.running, M.keyOf op = k ∧ op.record = some r
  outer_nested : s.ledger.running.Pairwise fun p q => M.keyOf q = M.keyOf p → q.nested = true
  innermost : ∀ k op, s.ledger.running.find? (fun p => M.keyOf p = k) = some op →
    (op.nested = true → s.store k = none) ∧
    (∀ r, op.record = some r → op.nested = false → s.store k = some r)
  started : ∀ op ∈ s.ledger.running, ∀ r ∈ op.record, M.start r ≤ s.ledger.clock
  done_nested : ∀ d ∈ s.ledger.done, d.op.nested = true → d.reported = []
  done_kept : ∀ d ∈ s.ledger.done, ∀ r, d.op.record = some r → d.op.nested = false →
    d.reported = M.emission (some r) d.exit

theorem inv_init : M.Inv ⟨fun _ => none, Ledger.empty⟩ where
  owned := by simp
  outer_nested := .nil
  innermost := by simp [Ledger.empty]
  started := by simp [Ledger.empty]
  done_nested := by simp [Ledger.empty]
  done_kept := by simp [Ledger.empty]

theorem inv_enter {s : State T L K R X E} (h : M.Inv s) {t : T} {label : L}
    {record : Option R} {now : ℕ} (hnow : s.ledger.clock ≤ now)
    (hstart : ∀ r ∈ record, M.start r ≤ now) :
    M.Inv ⟨keep s.store (M.key t label) record, M.enterLedger s.ledger t label record now⟩ where
  owned := by
    intro k r hk
    have old : s.store k = some r → ∃ op ∈ (M.enterLedger s.ledger t label record now).running,
        M.keyOf op = k ∧ op.record = some r := by
      intro hs
      obtain ⟨op, hop, he, hr⟩ := h.owned k r hs
      exact ⟨M.mark _ op, List.mem_cons_of_mem _ (List.mem_map_of_mem hop), by simpa using he,
        by simpa using hr⟩
    by_cases he : k = M.key t label
    · subst he
      cases record with
      | none => exact old hk
      | some v =>
          simp only [keep, Function.update_self, Option.some.injEq] at hk
          exact ⟨_, List.mem_cons_self, rfl, by rw [hk]⟩
    · exact old ((keep_of_ne he record).symm.trans hk)
  outer_nested := by
    simp only [enterLedger, List.pairwise_cons, List.mem_map, forall_exists_index, and_imp,
      forall_apply_eq_imp_iff₂, List.pairwise_map, keyOf_mark]
    refine ⟨fun op _ he => M.mark_nested (.inr he), h.outer_nested.imp ?_⟩
    exact fun hpq he => M.mark_nested (.inl (hpq he))
  innermost := by
    intro k op hop
    by_cases he : M.key t label = k
    · have hop' : op = ⟨t, label, record, false⟩ := by
        simpa [enterLedger, keyOf, he, eq_comm] using hop
      subst hop'
      refine ⟨fun hn => absurd hn (by simp), fun r hr _ => ?_⟩
      simp only at hr
      subst hr
      simp [keep, he]
    · have hmap : (s.ledger.running.map (M.mark (M.key t label))).find?
          (fun p => M.keyOf p = k) = some op := by
        simpa [enterLedger, keyOf, he] using hop
      simp only [keep_of_ne (Ne.symm he)]
      exact h.innermost k op (M.find?_of_find?_map_mark (Ne.symm he) hmap)
  started := by
    intro op hop r hr
    rcases List.mem_cons.mp hop with rfl | hop
    · exact hstart r hr
    · obtain ⟨p, hp, rfl⟩ := List.mem_map.mp hop
      exact Nat.le_trans (h.started p hp r (by simpa using hr)) hnow
  done_nested := h.done_nested
  done_kept := h.done_kept

theorem Inv.enclosing_nested {s : State T L K R X E} (h : M.Inv s) {op p : Op T L R}
    {inner outer : List (Op T L R)} (hrun : s.ledger.running = inner ++ op :: outer)
    (hinner : ∀ q ∈ inner, q.thread ≠ op.thread) (hp : p ∈ inner ++ outer)
    (hk : M.keyOf p = M.keyOf op) : p.nested = true := by
  rcases List.mem_append.mp hp with hp' | hp'
  · exact absurd hk (M.keyOf_ne_of_thread_ne (hinner p hp'))
  · have hpair := h.outer_nested
    rw [hrun, List.pairwise_append, List.pairwise_cons] at hpair
    exact hpair.2.1.1 p hp' hk

variable [DecidableEq T]

/-- The innermost operation splits the open list: everything further in
belongs to other threads, and the exit removes just that one entry. -/
theorem innermost_split {l : Ledger T L R X E} {t : T} {op : Op T L R}
    (h : l.innermost t = some op) :
    op.thread = t ∧ ∃ inner outer, l.running = inner ++ op :: outer ∧
      (∀ p ∈ inner, p.thread ≠ op.thread) ∧
      l.running.eraseP (fun p => p.thread = op.thread) = inner ++ outer := by
  have ht : op.thread = t := by simpa using List.find?_some h
  obtain ⟨-, inner, outer, hrun, hinner⟩ := List.find?_eq_some_iff_append.mp h
  have hother : ∀ p ∈ inner, p.thread ≠ op.thread := by
    intro p hp he
    have := hinner p hp
    simp [he.trans ht] at this
  refine ⟨ht, inner, outer, hrun, hother, ?_⟩
  rw [hrun, List.eraseP_append_right _ (by simpa using hother), List.eraseP_cons_of_pos (by simp)]

theorem innermost_first {l : Ledger T L R X E} {t : T} {op : Op T L R}
    (h : l.innermost t = some op) :
    l.running.find? (fun p => M.keyOf p = M.keyOf op) = some op := by
  obtain ⟨-, inner, outer, hrun, hinner, -⟩ := innermost_split h
  rw [hrun, List.find?_append, List.find?_eq_none.mpr, Option.none_or, List.find?_cons_of_pos]
  · simp
  · intro p hp
    simpa using M.keyOf_ne_of_thread_ne (hinner p hp)

theorem inv_leave {s : State T L K R X E} (h : M.Inv s) {t : T} {op : Op T L R} {x : X}
    (hx : s.ledger.clock ≤ M.time x) (hop : s.ledger.innermost t = some op) :
    M.Inv ⟨Function.update s.store (M.keyOf op) none,
      M.leaveLedger s.ledger op x (M.emission (s.store (M.keyOf op)) x)⟩ := by
  obtain ⟨-, inner, outer, hrun, hinner, herase⟩ := innermost_split hop
  have hsub : (inner ++ outer).Sublist s.ledger.running := by
    rw [hrun]
    exact (List.Sublist.refl inner).append (List.sublist_cons_self op outer)
  have hself := h.innermost _ op (M.innermost_first hop)
  refine ⟨?_, ?_, ?_, ?_, ?_, ?_⟩
  · intro k r hk
    by_cases he : k = M.keyOf op
    · simp [he] at hk
    · obtain ⟨p, hp, hpk, hr⟩ := h.owned k r (by simpa only [Function.update_of_ne he] using hk)
      refine ⟨p, ?_, hpk, hr⟩
      simp only [leaveLedger, herase]
      rw [hrun] at hp
      have hne : p ≠ op := fun e => he (by rw [← hpk, e])
      simpa [hne] using hp
  · simp only [leaveLedger, herase]
    exact h.outer_nested.sublist hsub
  · intro k p hp
    simp only [leaveLedger, herase] at hp
    by_cases he : k = M.keyOf op
    · subst he
      -- the next operation of this key encloses the closed one, so it is marked
      have hpn : p.nested = true := h.enclosing_nested M hrun hinner
        (List.mem_of_find?_eq_some hp) (by simpa using List.find?_some hp)
      exact ⟨fun _ => Function.update_self _ _ _, fun r _ hf => absurd hpn (by simp [hf])⟩
    · have hfind : s.ledger.running.find? (fun q => M.keyOf q = k) = some p := by
        rw [hrun, List.find?_append, List.find?_cons_of_neg (by simpa using Ne.symm he),
          ← List.find?_append]
        exact hp
      simpa only [Function.update_of_ne he] using h.innermost k p hfind
  · intro p hp r hr
    simp only [leaveLedger, herase] at hp
    exact Nat.le_trans (h.started p (hsub.mem hp) r hr) hx
  · intro d hd hn
    rcases List.mem_cons.mp hd with rfl | hd
    · simp only at hn ⊢
      rw [hself.1 hn, emission_none]
    · exact h.done_nested d hd hn
  · intro d hd r hr hn
    rcases List.mem_cons.mp hd with rfl | hd
    · simp only at hr hn ⊢
      rw [hself.2 r hr hn]
    · exact h.done_kept d hd r hr hn

theorem Step.inv {s u : State T L K R X E} (hstep : M.Step s u) (h : M.Inv s) : M.Inv u := by
  cases hstep with
  | enter hnow hstart => exact M.inv_enter h hnow hstart
  | leave hx hop => exact M.inv_leave h hx hop

theorem Reachable.inv {s : State T L K R X E} (h : M.Reachable s) : M.Inv s := by
  induction h with
  | refl => exact M.inv_init
  | tail _ hstep ih => exact hstep.inv M ih

/-- A disturbed prefix stays disturbed: the operation is still open with a
later clock, or has closed later. -/
theorem Step.undisturbed {s u : State T L K R X E} (hstep : M.Step s u) (h : M.Inv s)
    (hu : M.Undisturbed u.ledger) : M.Undisturbed s.ledger := by
  cases hstep with
  | @enter t label record now hnow hstart =>
      refine ⟨hu.1, fun op hop r hr hn => ?_⟩
      have hlater := hu.2 (M.mark _ op) (List.mem_cons_of_mem _ (List.mem_map_of_mem hop)) r
        (by simpa using hr) (M.mark_nested (.inl hn))
      by_contra hdue
      have := M.due_mono (h.started op hop r hr) hnow (by simpa using hdue)
      simp [enterLedger, this] at hlater
  | @leave t op x hx hop =>
      obtain ⟨-, inner, outer, hrun, -, herase⟩ := innermost_split hop
      refine ⟨fun d hd => hu.1 d (List.mem_cons_of_mem _ hd), fun p hp r hr hn => ?_⟩
      have hlater : M.due r (M.time x) = false := by
        by_cases he : p = op
        · subst he
          exact hu.1 _ List.mem_cons_self r hr hn
        · refine hu.2 p ?_ r hr hn
          simp only [leaveLedger, herase]
          rw [hrun] at hp
          simpa [he] using hp
      by_contra hdue
      have := M.due_mono (h.started p hp r hr) hx (by simpa using hdue)
      simp [this] at hlater

/-- The one exit of this step reports its own record, unless it takes the
record of an enclosing operation: that one then encloses it in the new ledger
too, and is not due. -/
theorem leave_reports_own {s : State T L K R X E} (h : M.Inv s) {t : T} {op : Op T L R} {x : X}
    (hop : s.ledger.innermost t = some op)
    (hu : M.Undisturbed (M.leaveLedger s.ledger op x (M.emission (s.store (M.keyOf op)) x))) :
    M.emission (s.store (M.keyOf op)) x = M.emission op.record x := by
  obtain ⟨-, inner, outer, hrun, hinner, herase⟩ := innermost_split hop
  have hself := h.innermost _ op (M.innermost_first hop)
  cases hn : op.nested with
  | true =>
      rw [hself.1 hn, emission_none]
      cases hr : op.record with
      | none => rfl
      | some r => exact (M.emission_not_due (hu.1 _ List.mem_cons_self r hr hn)).symm
  | false =>
      cases hr : op.record with
      | some r => rw [hself.2 r hr hn]
      | none =>
          cases hs : s.store (M.keyOf op) with
          | none => rfl
          | some r =>
              obtain ⟨p, hp, hpk, hpr⟩ := h.owned _ r hs
              have hne : p ≠ op := by
                rintro rfl
                simp [hr] at hpr
              have hmem : p ∈ inner ++ outer := by
                rw [hrun] at hp
                simpa [hne] using hp
              have hpn : p.nested = true := h.enclosing_nested M hrun hinner hmem hpk
              exact M.emission_not_due (hu.2 p (by simpa only [leaveLedger, herase]) r hpr hpn)

theorem exact_of_undisturbed {s : State T L K R X E} (h : M.Reachable s)
    (hu : M.Undisturbed s.ledger) : M.Exact s.ledger := by
  induction h with
  | refl => exact fun d hd => absurd hd (by simp [Ledger.empty])
  | @tail s u hs hstep ih =>
      have hinv := Reachable.inv M hs
      have hex := ih (hstep.undisturbed M hinv hu)
      cases hstep with
      | enter _ _ => exact hex
      | leave _ hop =>
          intro d hd
          rcases List.mem_cons.mp hd with rfl | hd
          · exact M.leave_reports_own hinv hop hu
          · exact hex d hd

/-- In a run that closes everything it opened, the condition is exact. -/
theorem exact_iff_undisturbed {s : State T L K R X E} (h : M.Reachable s)
    (hclosed : s.ledger.running = []) : M.Exact s.ledger ↔ M.Undisturbed s.ledger := by
  refine ⟨fun hex => ⟨fun d hd r hr hn => ?_, by simp [hclosed]⟩, M.exact_of_undisturbed h⟩
  by_contra hdue
  have hown := hex d hd
  rw [(Reachable.inv M h).done_nested d hd hn, Option.mem_def.mp hr,
    M.emission_due (by simpa using hdue)] at hown
  exact absurd hown (by simp)

end Tracer
end MonitoringTools.KeyedCorrelation
