import Mathlib.Data.List.Sort
import Mathlib.Data.Nat.Notation

/-!
# Binary search

The search halves a window of positions by the order of the key against the
element in its middle. Where that order never rises again after it has fallen,
the search finds a match exactly when the window has one.
-/
namespace MonitoringTools.BinarySearch

/-- The loop over a window; `order i` is the key against element `i`. -/
def search (order : ℕ → Ordering) : ℕ → ℕ → ℕ → Option ℕ
  | 0, _, _ => none
  | fuel + 1, lower, upper =>
      if lower < upper then
        let middle := (lower + upper) / 2
        match order middle with
        | .lt => search order fuel lower middle
        | .gt => search order fuel (middle + 1) upper
        | .eq => some middle
      else none

/-- The key is past a first stretch of positions and short of a last one. -/
structure Falling (order : ℕ → Ordering) : Prop where
  lt_after : ∀ {i j}, i ≤ j → order i = .lt → order j = .lt
  gt_before : ∀ {i j}, i ≤ j → order j = .gt → order i = .gt

theorem search_isSome_iff {order : ℕ → Ordering} (h : Falling order) {fuel lower upper : ℕ}
    (hfuel : upper - lower ≤ fuel) : (search order fuel lower upper).isSome = true ↔
      ∃ i, lower ≤ i ∧ i < upper ∧ order i = .eq := by
  induction fuel generalizing lower upper with
  | zero =>
      have hempty : ∀ i, ¬ (lower ≤ i ∧ i < upper ∧ order i = .eq) := fun i hi => by omega
      simp [search, hempty]
  | succ fuel ih =>
      simp only [search]
      split
      next hwindow =>
          generalize hmiddle : (lower + upper) / 2 = middle
          have hinside : lower ≤ middle ∧ middle < upper := by omega
          split
          next hlt =>
              rw [ih (by omega)]
              constructor
              · rintro ⟨i, hlow, hhigh, heq⟩
                exact ⟨i, hlow, by omega, heq⟩
              · rintro ⟨i, hlow, hhigh, heq⟩
                refine ⟨i, hlow, ?_, heq⟩
                by_contra hpast
                rw [h.lt_after (Nat.le_of_not_lt hpast) hlt] at heq
                cases heq
          next hgt =>
              rw [ih (by omega)]
              constructor
              · rintro ⟨i, hlow, hhigh, heq⟩
                exact ⟨i, by omega, hhigh, heq⟩
              · rintro ⟨i, hlow, hhigh, heq⟩
                refine ⟨i, ?_, hhigh, heq⟩
                by_contra hshort
                rw [h.gt_before (by omega) hgt] at heq
                cases heq
          next heq => exact iff_of_true rfl ⟨middle, hinside.1, hinside.2, heq⟩
      next hwindow =>
          have hempty : ∀ i, ¬ (lower ≤ i ∧ i < upper ∧ order i = .eq) := fun i hi => by omega
          simp [hempty]

variable {α : Type*} [LinearOrder α]

/-- A key against the elements of a table; past the end it counts as smaller. -/
def orderIn (table : List α) (key : α) (i : ℕ) : Ordering :=
  match table[i]? with
  | some a => compare key a
  | none => .lt

/-- `bsearch` over the first elements of a table. -/
def bsearch (table : List α) (count : ℕ) (key : α) : Option ℕ :=
  search (orderIn table key) count 0 count

theorem falling_orderIn {table : List α} (hsorted : table.Pairwise (· < ·)) (key : α) :
    Falling (orderIn table key) := by
  have hbefore : ∀ {i j : ℕ} {b : α}, i ≤ j → table[j]? = some b →
      ∃ a, table[i]? = some a ∧ a ≤ b := by
    intro i j b hij hb
    obtain ⟨hj, rfl⟩ := List.getElem?_eq_some_iff.mp hb
    refine ⟨_, List.getElem?_eq_getElem (Nat.lt_of_le_of_lt hij hj), ?_⟩
    rcases Nat.lt_or_eq_of_le hij with hlt | rfl
    · exact (List.pairwise_iff_getElem.mp hsorted i j _ hj hlt).le
    · exact le_rfl
  constructor
  · intro i j hij hlt
    unfold orderIn at hlt ⊢
    cases hb : table[j]? with
    | none => rfl
    | some b =>
        obtain ⟨a, ha, hab⟩ := hbefore hij hb
        rw [ha] at hlt
        exact compare_lt_iff_lt.mpr ((compare_lt_iff_lt.mp hlt).trans_le hab)
  · intro i j hij hgt
    unfold orderIn at hgt ⊢
    cases hb : table[j]? with
    | none => simp [hb] at hgt
    | some b =>
        obtain ⟨a, ha, hab⟩ := hbefore hij hb
        rw [hb] at hgt
        rw [ha]
        exact compare_gt_iff_gt.mpr (hab.trans_lt (compare_gt_iff_gt.mp hgt))

/-- In a sorted table the search finds exactly its members. -/
theorem bsearch_isSome_iff {table : List α} (hsorted : table.Pairwise (· < ·)) {key : α} :
    (bsearch table table.length key).isSome = true ↔ key ∈ table := by
  rw [bsearch, search_isSome_iff (falling_orderIn hsorted key) (Nat.le_of_eq (Nat.sub_zero _)),
    List.mem_iff_getElem?]
  refine exists_congr fun i => ?_
  constructor
  · rintro ⟨-, hi, heq⟩
    rw [orderIn, List.getElem?_eq_getElem hi, compare_eq_iff_eq] at heq
    rw [List.getElem?_eq_getElem hi, heq]
  · intro hkey
    exact ⟨Nat.zero_le i, (List.getElem?_eq_some_iff.mp hkey).1, by simp [orderIn, hkey]⟩

end MonitoringTools.BinarySearch
