import Mathlib.Data.List.Basic
import Mathlib.Data.List.Induction
import Mathlib.Logic.Function.Basic

/-!
# A table of requests in flight, filled through a filter

A request starts under a key and finishes there. A start enters its record
when a filter lets its kind pass and the table has room; a table that keeps
old records also wants the key to be free. Whatever the mixture of starts and
finishes, a record found under a key is one that passed the filter and was
started there since the key was last finished. Without overwriting and with room
it is the first such record.
-/
namespace MonitoringTools.RequestTable

inductive Op (K R : Type) where
  | start (overwrite room : Bool) (key : K) (record : R)
  | finish (key : K)

variable {K R C : Type}

def Op.key : Op K R → K
  | .start _ _ key _ | .finish key => key

variable [DecidableEq K]

def step (passes : R → Bool) (table : K → Option R) : Op K R → K → Option R
  | .start overwrite room key record =>
      if passes record && room && (overwrite || (table key).isNone) then
        Function.update table key (some record)
      else table
  | .finish key => Function.update table key none

def run (passes : R → Bool) (ops : List (Op K R)) : K → Option R :=
  ops.foldl (step passes) fun _ => none

/-- The records started under a key since it was last finished, in a history
that stands newest first. -/
def started (key : K) : List (Op K R) → List R
  | [] => []
  | .start _ _ k record :: ops => if k = key then record :: started key ops else started key ops
  | .finish k :: ops => if k = key then [] else started key ops

/-- A start that keeps the record already there and finds room for its own. -/
def Op.Keeps : Op K R → Prop
  | .start overwrite room _ _ => overwrite = false ∧ room = true
  | .finish _ => True

variable {passes : R → Bool}

theorem run_concat (ops : List (Op K R)) (op : Op K R) :
    run passes (ops ++ [op]) = step passes (run passes ops) op := List.foldl_concat ..

theorem step_start_of_ne {table : K → Option R} {overwrite room : Bool} {key k : K} {record : R}
    (h : k ≠ key) : step passes table (.start overwrite room key record) k = table k := by
  simp only [step]
  split
  · exact Function.update_of_ne h _ _
  · rfl

theorem step_start_self {table : K → Option R} {overwrite room : Bool} {key : K} {record : R} :
    (passes record = true ∧
      step passes table (.start overwrite room key record) key = some record) ∨
    step passes table (.start overwrite room key record) key = table key := by
  simp only [step]
  split
  next h =>
      rw [Bool.and_eq_true, Bool.and_eq_true] at h
      exact .inl ⟨h.1.1, Function.update_self ..⟩
  next => exact .inr rfl

theorem run_some {ops : List (Op K R)} {key : K} {r : R} (h : run passes ops key = some r) :
    passes r = true ∧ r ∈ started key ops.reverse := by
  induction ops using List.reverseRecOn with
  | nil => cases h
  | append_singleton ops op ih =>
      rw [run_concat] at h
      rw [List.reverse_concat]
      cases op with
      | start overwrite room k record =>
          by_cases hk : key = k
          · subst hk
            obtain ⟨hpass, hstored⟩ | hkept :=
              @step_start_self K R _ passes (run passes ops) overwrite room key record
            · rw [hstored, Option.some.injEq] at h
              subst h
              exact ⟨hpass, by simp [started]⟩
            · rw [hkept] at h
              exact ⟨(ih h).1, by simp [started, (ih h).2]⟩
          · rw [step_start_of_ne hk] at h
            simpa [started, Ne.symm hk] using ih h
      | finish k =>
          by_cases hk : key = k
          · subst hk
            simp [step] at h
          · rw [step, Function.update_of_ne hk] at h
            simpa [started, Ne.symm hk] using ih h

theorem step_finish_self (table : K → Option R) (key : K) :
    step passes table (.finish key) key = none := Function.update_self ..

theorem step_of_key_ne {table : K → Option R} {op : Op K R} {key : K} (h : op.key ≠ key) :
    step passes table op key = table key := by
  cases op with
  | start overwrite room k record => exact step_start_of_ne (Ne.symm h)
  | finish k => exact Function.update_of_ne (Ne.symm h) _ _

theorem started_of_key_ne {op : Op K R} {key : K} (h : op.key ≠ key) (ops : List (Op K R)) :
    started key (op :: ops) = started key ops := by
  cases op <;> exact if_neg h

theorem start_of_mem_started {ops : List (Op K R)} {key : K} {r : R} (h : r ∈ started key ops) :
    ∃ overwrite room, Op.start overwrite room key r ∈ ops := by
  induction ops with
  | nil => cases h
  | cons op ops ih =>
      have htail : r ∈ started key ops →
          ∃ overwrite room, Op.start overwrite room key r ∈ op :: ops := by
        intro hr
        obtain ⟨overwrite, room, hmem⟩ := ih hr
        exact ⟨overwrite, room, List.mem_cons_of_mem _ hmem⟩
      by_cases hkey : op.key = key
      · subst hkey
        cases op with
        | start overwrite room key record =>
            simp only [Op.key, started, if_true, List.mem_cons] at h
            rcases h with rfl | h
            · exact ⟨overwrite, room, List.mem_cons_self⟩
            · exact htail h
        | finish key => simp [Op.key, started] at h
      · rw [started_of_key_ne hkey] at h
        exact htail h

/-- Where every start under a key keeps what is there and finds room, the key
holds the first record that passed since it was last finished. -/
theorem run_first {ops : List (Op K R)} {key : K} (h : ∀ op ∈ ops, op.key = key → op.Keeps) :
    run passes ops key = (started key ops.reverse).reverse.find? passes := by
  induction ops using List.reverseRecOn with
  | nil => rfl
  | append_singleton ops op ih =>
      have hbefore := ih fun o ho => h o (List.mem_append_left _ ho)
      rw [run_concat, List.reverse_concat]
      by_cases hkey : op.key = key
      · subst hkey
        cases op with
        | start overwrite room key record =>
            obtain ⟨rfl, rfl⟩ : overwrite = false ∧ room = true :=
              h _ (List.mem_append_right _ List.mem_cons_self) rfl
            simp only [Op.key] at hbefore ⊢
            simp only [step, started, if_true, List.reverse_cons, List.find?_append, ← hbefore,
              Bool.and_true, Bool.false_or, Bool.and_eq_true]
            cases hold : run passes ops key with
            | some r => simp [hold]
            | none =>
                cases hpass : passes record <;> simp [hold, hpass]
        | finish key =>
            simp only [Op.key, step_finish_self, started, if_true, List.reverse_nil, List.find?_nil]
      · rw [step_of_key_ne hkey, started_of_key_ne hkey, hbefore]

/-- After a start with room, a record of its kind stands under its key exactly when the filter
lets the kind pass and, in a table that keeps old records, none of another kind is there. -/
theorem start_recorded_iff {kind : R → C} {ops : List (Op K R)} {overwrite : Bool} {key : K}
    {record : R} (hkind : ∀ r r', kind r = kind r' → passes r = passes r') :
    (∃ r, run passes (ops ++ [.start overwrite true key record]) key = some r ∧
      kind r = kind record) ↔ passes record = true ∧
        (overwrite = true ∨ ∀ r, run passes ops key = some r → kind r = kind record) := by
  have hheld : ∀ r, run passes ops key = some r → passes r = true := fun r hr => (run_some hr).1
  rw [run_concat, step]
  cases hpass : passes record with
  | false =>
      have hother : ∀ r, run passes ops key = some r → kind r ≠ kind record := by
        intro r hr hsame
        have hpassed := (hkind r record hsame).symm.trans (hheld r hr)
        rw [hpass] at hpassed
        cases hpassed
      simp only [Bool.false_and, Bool.false_eq_true, if_false, false_and, iff_false]
      rintro ⟨r, hr, hsame⟩
      exact hother r hr hsame
  | true =>
      cases overwrite with
      | true => simp
      | false =>
          cases hold : run passes ops key <;> simp [hold]

end MonitoringTools.RequestTable
