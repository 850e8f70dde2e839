import Mathlib.Data.List.Induction

/-!
# Runs of a step function

A partial step function answers `none` where the environment cannot move that
way; a run folds it over a list of moves, and a property that every step keeps
holds at the end of every run. Where every move is possible a run is a plain
left fold, and whatever a state holds entered it at some move. A table under
moves that write or clear single keys holds what was written last, and a name stands
for one object from one clearing to the next.
-/
namespace MonitoringTools.Runs

variable {S F : Type*} {step : S → F → Option S}

def run (step : S → F → Option S) (s : S) (fs : List F) : Option S := fs.foldlM step s

theorem run_cons (s : S) (f : F) (fs : List F) :
    run step s (f :: fs) = (step s f).bind fun s' => run step s' fs := rfl

theorem run_append (s : S) (fs gs : List F) :
    run step s (fs ++ gs) = (run step s fs).bind fun s' => run step s' gs :=
  List.foldlM_append

/-- The invariant rule. The moves may be known to satisfy a side condition. -/
theorem run_invariant {P : S → Prop} {C : F → Prop} {s u : S} {fs : List F}
    (hstep : ∀ s f u, P s → C f → step s f = some u → P u)
    (hrun : run step s fs = some u) (h : P s) (hC : ∀ f ∈ fs, C f) : P u := by
  induction fs generalizing s with
  | nil =>
      cases hrun
      exact h
  | cons f fs ih =>
      rw [run_cons, Option.bind_eq_some_iff] at hrun
      obtain ⟨s', hs, hrest⟩ := hrun
      exact ih hrest (hstep s f s' h (hC f List.mem_cons_self) hs)
        fun g hg => hC g (List.mem_cons_of_mem _ hg)

theorem run_preserves {P : S → Prop} {s u : S} {fs : List F}
    (hstep : ∀ s f u, P s → step s f = some u → P u) (hrun : run step s fs = some u) (h : P s) :
    P u :=
  run_invariant (C := fun _ => True) (fun s f u hs _ => hstep s f u hs) hrun h fun _ _ => trivial

/-- Every move of a run is made under a condition on the state before it. -/
def Along (step : S → F → Option S) (C : S → F → Prop) : S → List F → Prop
  | _, [] => True
  | s, f :: fs => C s f ∧ ∀ u, step s f = some u → Along step C u fs

instance Along.decidable {C : S → F → Prop} [∀ s f, Decidable (C s f)] :
    (s : S) → (fs : List F) → Decidable (Along step C s fs)
  | _, [] => .isTrue trivial
  | s, f :: fs =>
      have : ∀ u, Decidable (Along step C u fs) := fun u => Along.decidable u fs
      inferInstanceAs (Decidable (C s f ∧ ∀ u ∈ step s f, Along step C u fs))

theorem along_cons {C : S → F → Prop} {s u : S} {f : F} {fs : List F} (h : step s f = some u) :
    Along step C s (f :: fs) ↔ C s f ∧ Along step C u fs := by
  refine and_congr_right fun _ => ⟨fun hrest => hrest u h, fun hrest v hv => ?_⟩
  cases h.symm.trans hv
  exact hrest

/-- The invariant rule for runs along which a condition holds. -/
theorem run_invariant_along {P : S → Prop} {C : S → F → Prop} {s u : S} {fs : List F}
    (hstep : ∀ s f u, P s → C s f → step s f = some u → P u)
    (hrun : run step s fs = some u) (h : P s) (hC : Along step C s fs) : P u := by
  induction fs generalizing s with
  | nil =>
      cases hrun
      exact h
  | cons f fs ih =>
      rw [run_cons, Option.bind_eq_some_iff] at hrun
      obtain ⟨s', hs, hrest⟩ := hrun
      exact ih hrest (hstep s f s' h hC.1 hs) (hC.2 s' hs)

/-- Provenance: what the final state holds was born at one of the moves, in
the state that the moves before it reached. -/
theorem foldl_provenance {R : Type*} {step : S → F → S} (holds : S → R → Prop)
    (born : S → F → R → Prop) {s : S} {fs : List F} {r : R} (hnone : ∀ r, ¬ holds s r)
    (hstep : ∀ s f r, holds (step s f) r → born s f r ∨ holds s r)
    (h : holds (fs.foldl step s) r) :
    ∃ before f after, fs = before ++ f :: after ∧ born (before.foldl step s) f r := by
  induction fs using List.reverseRecOn with
  | nil => exact absurd h (hnone r)
  | append_singleton fs f ih =>
      rw [List.foldl_append] at h
      rcases hstep _ f r h with hborn | hold
      · exact ⟨fs, f, [], rfl, hborn⟩
      · obtain ⟨before, g, after, rfl, hborn⟩ := ih hold
        exact ⟨before, g, after ++ [f], by simp, hborn⟩

section LastWrite
variable {K V : Type*} (effect : F → K → Option (Option V))

/-- The content of a table at a key. A move leaves a key alone (`none`), clears it
(`some none`) or writes it. -/
def content (fs : List F) (k : K) : Option V := fs.foldl (fun old f => (effect f k).getD old) none

theorem content_concat (fs : List F) (f : F) (k : K) :
    content effect (fs ++ [f]) k = (effect f k).getD (content effect fs k) := by
  rw [content, List.foldl_append]
  rfl

/-- A key holds what some move wrote and no later move touched. -/
theorem content_eq_some_iff {fs : List F} {k : K} {v : V} : content effect fs k = some v ↔
    ∃ before f after, fs = before ++ f :: after ∧ effect f k = some (some v) ∧
      ∀ g ∈ after, effect g k = none := by
  induction fs using List.reverseRecOn with
  | nil => simp [content]
  | append_singleton fs f ih =>
      rw [content_concat]
      constructor
      · intro h
        cases hf : effect f k with
        | none =>
            rw [hf, Option.getD_none, ih] at h
            obtain ⟨before, g, after, rfl, hg, hafter⟩ := h
            refine ⟨before, g, after ++ [f], by simp, hg, fun x hx => ?_⟩
            rcases List.mem_append.mp hx with hold | hlast
            · exact hafter x hold
            · rwa [List.mem_singleton.mp hlast]
        | some w =>
            rw [hf, Option.getD_some] at h
            exact ⟨fs, f, [], rfl, by rw [hf, h], fun _ hx => absurd hx List.not_mem_nil⟩
      · rintro ⟨before, g, after, heq, hg, hafter⟩
        rcases List.eq_nil_or_concat after with rfl | ⟨after, last, rfl⟩
        · obtain ⟨-, hlast⟩ := List.append_inj' heq rfl
          rw [(List.cons.inj hlast).1, hg, Option.getD_some]
        · rw [List.concat_eq_append, ← List.cons_append, ← List.append_assoc] at heq
          obtain ⟨hfs, hlast⟩ := List.append_inj' heq rfl
          have hnone : effect f k = none := by
            rw [(List.cons.inj hlast).1]
            exact hafter last (by simp)
          rw [hnone, Option.getD_none, ih]
          exact ⟨before, g, after, hfs, hg, fun x hx => hafter x (by simp [hx])⟩

end LastWrite

section Echoes
variable {fire : S → F → S} {repeats apart : F → F → Prop}

/-- Moves marked as echoes or not, without the echoes. -/
def originals (gs : List (F × Bool)) : List F := (gs.filter fun g => !g.2).map Prod.fst

theorem originals_append (gs gs' : List (F × Bool)) :
    originals (gs ++ gs') = originals gs ++ originals gs' := by
  rw [originals, List.filter_append, List.map_append]
  rfl

/-- Every echo repeats an earlier move, and the moves between them are apart from it. -/
def Echoed (repeats apart : F → F → Prop) (gs : List (F × Bool)) : Prop :=
  ∀ before f after, gs = before ++ (f, true) :: after → ∃ earlier g middle,
    before = earlier ++ (g, false) :: middle ∧ repeats g f ∧ ∀ h ∈ middle, apart h.1 f

theorem echoed_single {earlier middle after : List F} {g f : F} (hrepeats : repeats g f)
    (hmiddle : ∀ h ∈ middle, apart h f) : Echoed repeats apart
      ((earlier ++ g :: middle).map (·, false) ++ (f, true) :: after.map (·, false)) := by
  intro before f' after' hgs
  have hplain : ∀ hs : List F, (f', true) ∉ hs.map (·, false) := by simp
  rcases List.append_eq_append_iff.mp hgs with ⟨between, rfl, heq⟩ | ⟨between, hbefore, heq⟩
  · cases between with
    | nil =>
        cases heq
        exact ⟨earlier.map (·, false), g, middle.map (·, false), by simp, hrepeats, by simpa⟩
    | cons x between =>
        have hafter := (List.cons.inj heq).2
        exact absurd (hafter ▸ by simp) (hplain after)
  · cases between with
    | nil =>
        cases heq
        refine ⟨earlier.map (·, false), g, middle.map (·, false), ?_, hrepeats, by simpa⟩
        simpa using hbefore.symm
    | cons x between =>
        obtain ⟨rfl, -⟩ := List.cons.inj heq
        exact absurd (hbefore ▸ by simp) (hplain (earlier ++ g :: middle))

theorem foldl_apart {s : S} {f : F} {hs : List F}
    (hapart : ∀ s h, apart h f → fire s f = s → fire (fire s h) f = fire s h)
    (h : ∀ g ∈ hs, apart g f) (hs' : fire s f = s) :
    fire (hs.foldl fire s) f = hs.foldl fire s := by
  induction hs generalizing s with
  | nil => exact hs'
  | cons g hs ih =>
      obtain ⟨hg, hrest⟩ := List.forall_mem_cons.mp h
      exact ih hrest (hapart s g hg hs')

/-- Echoes without an effect of their own can be left out. -/
theorem foldl_echoes (hrepeats : ∀ s g f, repeats g f → fire (fire s g) f = fire s g)
    (hapart : ∀ s h g f, repeats g f → apart h f → fire s f = s →
      fire (fire s h) f = fire s h)
    {gs : List (F × Bool)} (h : Echoed repeats apart gs) (s : S) :
    (gs.map Prod.fst).foldl fire s = (originals gs).foldl fire s := by
  induction gs using List.reverseRecOn with
  | nil => rfl
  | append_singleton gs x ih =>
      obtain ⟨f, echo⟩ := x
      have hsame := ih fun before g after hgs =>
        h before g (after ++ [(f, echo)]) (by rw [hgs]; simp)
      rw [List.map_append, List.foldl_append, hsame, originals_append, List.foldl_append]
      cases echo with
      | false => rfl
      | true =>
          obtain ⟨earlier, g, middle, rfl, hrepeat, hmiddle⟩ := h gs f [] rfl
          have hinert : ∀ g' ∈ originals middle, apart g' f := fun g' hg' => by
            obtain ⟨y, hy, rfl⟩ := List.mem_map.mp hg'
            exact hmiddle y (List.mem_filter.mp hy).1
          have hfirst : originals ((g, false) :: middle) = g :: originals middle := rfl
          rw [originals_append, List.foldl_append, hfirst, List.foldl_cons]
          exact foldl_apart (fun s h => hapart s h g f hrepeat) hinert (hrepeats _ g f hrepeat)

end Echoes

section Names
variable {O : Type*} {named : S → Option O} {older : S → O → Prop} {Keeps : S → F → Prop}

/-- A name that a move keeps, clears or gives to an object that is new. -/
structure Named (step : S → F → Option S) (named : S → Option O) (older : S → O → Prop)
    (Keeps : S → F → Prop) : Prop where
  kept : ∀ {s f u o}, step s f = some u → named s = some o → Keeps s f → named u = some o
  cleared : ∀ {s f u o}, step s f = some u → named s = some o → ¬ Keeps s f → named u ≠ some o
  renewed : ∀ {s f u o}, step s f = some u → older s o → named u = some o → named s = some o
  ages : ∀ {s f u o}, step s f = some u → older s o → older u o

theorem Named.run_ne (h : Named step named older Keeps) {s u : S} {fs : List F} {o : O}
    (hrun : run step s fs = some u) (hold : older s o) (hne : named s ≠ some o) :
    named u ≠ some o := by
  refine (run_preserves (P := fun s => older s o ∧ named s ≠ some o)
    (fun s f u hs hstep => ⟨h.ages hstep hs.1, fun hu => ?_⟩) hrun ⟨hold, hne⟩).2
  exact hs.2 (h.renewed hstep hs.1 hu)

/-- Whoever asks again gets the object that the name had, unless it was cleared since. -/
theorem Named.run_iff (h : Named step named older Keeps) {s u : S} {fs : List F} {o : O}
    (hrun : run step s fs = some u) (hold : older s o) (hnamed : named s = some o) :
    named u = some o ↔ Along step Keeps s fs := by
  induction fs generalizing s with
  | nil =>
      cases hrun
      exact ⟨fun _ => trivial, fun _ => hnamed⟩
  | cons f fs ih =>
      rw [run_cons, Option.bind_eq_some_iff] at hrun
      obtain ⟨s', hs, hrest⟩ := hrun
      rw [along_cons hs]
      by_cases hkeeps : Keeps s f
      · rw [ih hrest (h.ages hs hold) (h.kept hs hnamed hkeeps), and_iff_right hkeeps]
      · have hlost := h.run_ne hrest (h.ages hs hold) (h.cleared hs hnamed hkeeps)
        exact ⟨fun hu => absurd hu hlost, fun halong => absurd halong.1 hkeeps⟩

end Names

end MonitoringTools.Runs
