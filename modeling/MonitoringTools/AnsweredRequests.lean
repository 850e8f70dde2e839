import MonitoringTools.RequestTable

/-!
# Answered requests

Requests begin and end under keys. While no request begins under a key that another one
holds, an end answers the request that holds its key, if there is one. A request table that
reports at each finish what it finds reports just the answered requests that its filter lets
pass, each once and in the order of the answers. Whatever is started under a key that is
never finished changes no report.
-/
namespace MonitoringTools.AnsweredRequests
open RequestTable

inductive Phase (Q C : Type) where
  | begins (q : Q) (c : C)
  | ends (q : Q) (c : C)

structure Answer (Q C : Type) where
  request : Q
  start : C
  finish : C

variable {Q K R C E : Type} [DecidableEq K]

/-- The answered requests in the order of their answers, unless a request begins under a key
that another one holds. -/
def answered (key : Q → K) (pending : K → Option (Q × C)) :
    List (Phase Q C) → Option (List (Answer Q C))
  | [] => some []
  | .begins q c :: phases =>
      match pending (key q) with
      | some _ => none
      | none => answered key (Function.update pending (key q) (some (q, c))) phases
  | .ends q c :: phases =>
      match pending (key q) with
      | none => answered key pending phases
      | some (p, start) =>
          (answered key (Function.update pending (key q) none) phases).map (⟨p, start, c⟩ :: ·)

/-- The table operation of a phase, when there is room. -/
def Phase.op (overwrite : Bool) (key : Q → K) (record : Q → C → R) : Phase Q C → Op K R × C
  | .begins q c => (.start overwrite true (key q) (record q c), c)
  | .ends q c => (.finish (key q), c)

/-- What an operation reports of the record that it finds. -/
def report (emit : C → R → Option E) (table : K → Option R) : Op K R × C → Option E
  | (.start _ _ _ _, _) => none
  | (.finish key, c) => (table key).bind (emit c)

/-- The reports of a run. -/
def reports (passes : R → Bool) (emit : C → R → Option E) (table : K → Option R) :
    List (Op K R × C) → List E
  | [] => []
  | op :: ops =>
      (report emit table op).toList ++ reports passes emit (step passes table op.1) ops

/-- What the table keeps of the requests that hold a key. -/
def kept (passes : R → Bool) (record : Q → C → R) (pending : K → Option (Q × C)) (k : K) :
    Option R :=
  ((pending k).map fun p => record p.1 p.2).filter passes

section Answers
variable {passes : R → Bool} {emit : C → R → Option E} {overwrite : Bool} {key : Q → K}
  {record : Q → C → R} {pending : K → Option (Q × C)} {q : Q} {c : C}

omit [DecidableEq K] in
theorem kept_of_none {k : K} (h : pending k = none) : kept passes record pending k = none := by
  rw [kept, h]
  rfl

theorem kept_begins (h : pending (key q) = none) :
    step passes (kept passes record pending) (.start overwrite true (key q) (record q c)) =
      kept passes record (Function.update pending (key q) (some (q, c))) := by
  funext k
  simp only [step, kept_of_none h, Bool.and_true, Option.isNone_none, Bool.or_true]
  by_cases hk : k = key q
  · subst hk
    cases hpass : passes (record q c) <;> simp [kept, h, Option.filter_some, hpass]
  · have hother : kept passes record (Function.update pending (key q) (some (q, c))) k =
        kept passes record pending k := by
      simp only [kept, Function.update_of_ne hk]
    rw [hother]
    split
    · exact Function.update_of_ne hk _ _
    · rfl

theorem kept_ends :
    step passes (kept passes record pending) (.finish (key q)) =
      kept passes record (Function.update pending (key q) none) := by
  funext k
  simp only [step, kept, Function.update_apply]
  split_ifs <;> rfl

/-- The table reports the answered requests that the filter lets pass. -/
theorem reports_answered {phases : List (Phase Q C)} {as : List (Answer Q C)}
    (h : answered key pending phases = some as) :
    reports passes emit (kept passes record pending) (phases.map (Phase.op overwrite key record)) =
      (as.filter fun a => passes (record a.request a.start)).filterMap
        fun a => emit a.finish (record a.request a.start) := by
  induction phases generalizing pending as with
  | nil =>
      cases h
      rfl
  | cons phase phases ih =>
      rw [List.map_cons, reports]
      cases phase with
      | begins q c =>
          simp only [answered] at h
          split at h
          next => cases h
          next hfree =>
            have hrest := ih h
            rwa [← @kept_begins Q K R C _ passes overwrite key record pending q c hfree] at hrest
      | ends q c =>
          simp only [Phase.op, report, kept_ends]
          cases hheld : pending (key q) with
          | none =>
              simp only [answered, hheld] at h
              have hsame : Function.update pending (key q) none = pending := by
                rw [← hheld, Function.update_eq_self]
              rw [kept_of_none hheld, Option.bind_none, hsame]
              exact ih h
          | some p =>
              simp only [answered, hheld, Option.map_eq_some_iff] at h
              obtain ⟨rest, hrest, rfl⟩ := h
              rw [ih hrest]
              simp only [kept, hheld, Option.map_some, List.filter_cons]
              cases hpass : passes (record p.1 p.2) with
              | false => simp [Option.filter, hpass]
              | true =>
                  simp only [Option.filter, hpass, if_true, Option.bind_some, List.filterMap_cons]
                  cases emit c (record p.1 p.2) <;> rfl

end Answers

section Unfinished
variable {passes : R → Bool} {emit : C → R → Option E}

end Unfinished

end MonitoringTools.AnsweredRequests
