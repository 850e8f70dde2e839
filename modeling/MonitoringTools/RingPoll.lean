import Mathlib.Algebra.Order.Ring.Int

/-!
# Polling a ring with a callback

A poll hands the pending records to a callback in order. Every record it hands over
is consumed, and the first negative answer of the callback ends the poll with that
value. The callback works on a context of its own.
-/
namespace MonitoringTools.RingPoll

variable {C R : Type*}

structure Polled (C R : Type*) where
  value : ℤ
  context : C
  handed : List R
  left : List R

/-- Hand over the pending records. The value counts them, unless it is negative. -/
def consume (callback : C → R → ℤ × C) : C → List R → Polled C R
  | c, [] => ⟨0, c, [], []⟩
  | c, r :: rs =>
      let answer := callback c r
      if answer.1 < 0 then ⟨answer.1, answer.2, [r], rs⟩
      else
        let p := consume callback answer.2 rs
        ⟨if p.value < 0 then p.value else p.value + 1, p.context, r :: p.handed, p.left⟩

/-- How the wait for data ends: it fails with an error number, runs into its timeout, or
finds data. -/
inductive Wait where
  | failed (errno : ℕ)
  | timeout
  | ready
  deriving DecidableEq, Repr

/-- `ring_buffer__poll`. -/
def poll (callback : C → R → ℤ × C) (wait : Wait) (c : C) (pending : List R) : Polled C R :=
  match wait with
  | .failed errno => ⟨-errno, c, [], pending⟩
  | .timeout => ⟨0, c, [], pending⟩
  | .ready => consume callback c pending

variable {callback : C → R → ℤ × C}

theorem handed_append_left_consume (c : C) (pending : List R) :
    (consume callback c pending).handed ++ (consume callback c pending).left = pending := by
  induction pending generalizing c with
  | nil => rfl
  | cons r rs ih =>
      rw [consume]
      split
      next => rfl
      next => exact congrArg (r :: ·) (ih (callback c r).2)

theorem handed_append_left (wait : Wait) (c : C) (pending : List R) :
    (poll callback wait c pending).handed ++ (poll callback wait c pending).left = pending := by
  cases wait with
  | failed errno => rfl
  | timeout => rfl
  | ready => exact handed_append_left_consume c pending

/-- How a poll can end, for a relation `I` between the records handed over and the
context that the callback keeps as long as it goes on: with `I`, or on a record that
the callback answered with a negative value. -/
inductive Outcome (callback : C → R → ℤ × C) (I : List R → C → Prop) (p : Polled C R)
    (before : List R) : Prop
  | exhausted : 0 ≤ p.value → I (before ++ p.handed) p.context → Outcome callback I p before
  | stopped (init : List R) (r : R) (c : C) : p.handed = init ++ [r] → I (before ++ init) c →
      (callback c r).1 < 0 → p.value = (callback c r).1 → p.context = (callback c r).2 →
      Outcome callback I p before

theorem consume_outcome {I : List R → C → Prop}
    (hstep : ∀ before c r, I before c → 0 ≤ (callback c r).1 → I (before ++ [r]) (callback c r).2)
    {before : List R} {c : C} (h : I before c) (pending : List R) :
    Outcome callback I (consume callback c pending) before := by
  induction pending generalizing before c with
  | nil => exact .exhausted (le_refl _) (by simpa [consume] using h)
  | cons r rs ih =>
      rw [consume]
      split
      next hneg => exact .stopped [] r c rfl (by rwa [List.append_nil]) hneg rfl rfl
      next hpos =>
          have hrest := ih (hstep before c r h (not_lt.mp hpos))
          cases hrest with
          | exhausted hvalue hI =>
              have hcount : ¬ (consume callback (callback c r).2 rs).value < 0 := not_lt.mpr hvalue
              refine .exhausted ?_ (by rwa [List.append_cons])
              simpa only [if_neg hcount] using add_nonneg hvalue zero_le_one
          | stopped init q c' hhanded hI hneg hvalue hcontext =>
              refine .stopped (r :: init) q c' (congrArg (r :: ·) hhanded) ?_ hneg ?_ hcontext
              · rwa [List.append_cons]
              · exact (if_pos (hvalue ▸ hneg)).trans hvalue

theorem consume_of_nonneg (h : ∀ c r, 0 ≤ (callback c r).1) (c : C) (pending : List R) :
    consume callback c pending =
      ⟨pending.length, pending.foldl (fun c r => (callback c r).2) c, pending, []⟩ := by
  induction pending generalizing c with
  | nil => rfl
  | cons r rs ih =>
      rw [consume, ih]
      simp [not_lt.mpr (h c r)]

end MonitoringTools.RingPoll
