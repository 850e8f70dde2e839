import MonitoringTools.Runs

/-!
# Concurrent runs as runs of whole operations

Operations begin on processors and take several steps there, between the steps of others.
The history of a run lists the operations in the order in which they finish, and those that
still go on. A relation that every step keeps, when an operation that finishes takes effect
at once in the atomic system, relates the end of a run to the atomic run of its history.
-/
namespace MonitoringTools.Linearization
open Runs

variable {S F Op M : Type*}

structure History (Op : Type*) where
  finished : List Op
  pending : List (ℕ × Op)

def History.empty (Op : Type*) : History Op := ⟨[], []⟩

/-- The operations that were or are. -/
def History.all (t : History Op) : List Op := t.finished ++ t.pending.map Prod.snd

/-- What is pending after a move, the processors that have finished included. -/
def History.began (t : History Op) (began : Option (ℕ × Op)) : List (ℕ × Op) :=
  began.toList ++ t.pending

/-- What a move has finished. -/
def History.ended (t : History Op) (began : Option (ℕ × Op)) (busy : ℕ → Bool) : List Op :=
  ((t.began began).filter fun x => !busy x.1).map Prod.snd

def History.next (t : History Op) (began : Option (ℕ × Op)) (busy : ℕ → Bool) : History Op :=
  ⟨t.finished ++ t.ended began busy, (t.began began).filter fun x => busy x.1⟩

variable (step : S → F → Option S) (begins : F → Option (ℕ × Op)) (busy : S → ℕ → Bool)

def history : S → History Op → List F → History Op
  | _, t, [] => t
  | s, t, f :: fs =>
      match step s f with
      | none => t
      | some u => history u (t.next (begins f) (busy u)) fs

variable {step begins busy}

theorem history_cons {s u : S} {f : F} (h : step s f = some u) (t : History Op) (fs : List F) :
    history step begins busy s t (f :: fs) =
      history step begins busy u (t.next (begins f) (busy u)) fs := by
  rw [history, h]

theorem History.all_next (t : History Op) (began : Option (ℕ × Op)) (busy : ℕ → Bool) :
    (t.next began busy).all.Perm (t.all ++ (began.map Prod.snd).toList) := by
  have hsplit : ((t.began began).filter (fun x => !busy x.1) ++
      (t.began began).filter fun x => busy x.1).Perm (t.began began) :=
    List.perm_append_comm.trans (List.filter_append_perm (fun x => busy x.1) (t.began began))
  have hbegan : ((t.began began).map Prod.snd).Perm
      (t.pending.map Prod.snd ++ (began.map Prod.snd).toList) := by
    rw [History.began, List.map_append]
    refine List.perm_append_comm.trans ?_
    cases began <;> exact List.Perm.refl _
  have hall := ((hsplit.map Prod.snd).trans hbegan).append_left t.finished
  rwa [List.map_append, ← List.append_assoc, ← List.append_assoc] at hall

theorem History.ended_eq_nil {t : History Op} {began : Option (ℕ × Op)} {busy : ℕ → Bool}
    (h : ∀ x ∈ t.began began, busy x.1 = true) : t.ended began busy = [] := by
  rw [History.ended, List.map_eq_nil_iff, List.filter_eq_nil_iff]
  intro x hx
  rw [h x hx]
  decide

theorem History.next_pending {t : History Op} {began : Option (ℕ × Op)} {busy : ℕ → Bool}
    (h : ∀ x ∈ t.began began, busy x.1 = true) : (t.next began busy).pending = t.began began :=
  List.filter_eq_self.mpr h

theorem filter_key {l : List (ℕ × Op)} (hnodup : (l.map Prod.fst).Nodup) {x : ℕ × Op}
    (hx : x ∈ l) : l.filter (fun y => y.1 == x.1) = [x] := by
  induction l with
  | nil => cases hx
  | cons y l ih =>
      obtain ⟨hfresh, hrest⟩ := List.nodup_cons.mp hnodup
      rcases List.mem_cons.mp hx with rfl | hx
      · rw [List.filter_cons, if_pos (beq_self_eq_true x.1), List.filter_eq_nil_iff.mpr]
        intro z hz heq
        exact hfresh (List.mem_map.mpr ⟨z, hz, beq_iff_eq.mp heq⟩)
      · rw [List.filter_cons, if_neg, ih hrest hx]
        intro heq
        exact hfresh (List.mem_map.mpr ⟨x, hx, (beq_iff_eq.mp heq).symm⟩)

theorem History.ended_eq_single {t : History Op} {busy : ℕ → Bool} {cpu : ℕ} {op : Op}
    (hnodup : (t.pending.map Prod.fst).Nodup) (hop : (cpu, op) ∈ t.pending)
    (hfree : busy cpu = false) (hbusy : ∀ x ∈ t.pending, x.1 ≠ cpu → busy x.1 = true) :
    t.ended none busy = [op] := by
  have hsame : t.pending.filter (fun x => !busy x.1) = t.pending.filter fun x => x.1 == cpu := by
    refine List.filter_congr fun x hx => ?_
    by_cases hcpu : x.1 = cpu
    · rw [hcpu, hfree, beq_self_eq_true]
      rfl
    · rw [hbusy x hx hcpu, beq_eq_false_iff_ne.mpr hcpu]
      rfl
  rw [History.ended, History.began, Option.toList_none, List.nil_append, hsame,
    filter_key hnodup hop]
  rfl

/-- Every operation that begins is in the history once. -/
theorem history_perm {s u : S} {fs : List F} (hrun : run step s fs = some u) (t : History Op) :
    (history step begins busy s t fs).all.Perm
      (t.all ++ fs.filterMap fun f => (begins f).map Prod.snd) := by
  induction fs generalizing s t with
  | nil =>
      rw [List.filterMap_nil, List.append_nil]
      exact List.Perm.refl _
  | cons f fs ih =>
      rw [run_cons, Option.bind_eq_some_iff] at hrun
      obtain ⟨s', hs, hrest⟩ := hrun
      rw [history_cons hs]
      refine (ih hrest _).trans (((t.all_next (begins f) (busy s')).append_right _).trans ?_)
      rw [List.append_assoc, List.filterMap_cons]
      cases begins f <;> exact List.Perm.refl _

/-- The simulation rule for histories, along runs on which a condition holds. -/
theorem history_simulates {atomic : M → Op → M} {C : S → F → Prop}
    {R : S → M → List (ℕ × Op) → Prop}
    (hstep : ∀ s m (t : History Op) f u, R s m t.pending → C s f → step s f = some u →
      R u ((t.ended (begins f) (busy u)).foldl atomic m) (t.next (begins f) (busy u)).pending)
    {s u : S} {m : M} {fs : List F} {t : History Op} (hrun : run step s fs = some u)
    (hC : Along step C s fs) (h : R s (t.finished.foldl atomic m) t.pending) :
    R u ((history step begins busy s t fs).finished.foldl atomic m)
      (history step begins busy s t fs).pending := by
  induction fs generalizing s t with
  | nil =>
      cases hrun
      exact h
  | cons f fs ih =>
      rw [run_cons, Option.bind_eq_some_iff] at hrun
      obtain ⟨s', hs, hrest⟩ := hrun
      have hnext := hstep s _ t f s' h hC.1 hs
      rw [← List.foldl_append] at hnext
      rw [history_cons hs]
      exact ih hrest (hC.2 s' hs) hnext

end MonitoringTools.Linearization
