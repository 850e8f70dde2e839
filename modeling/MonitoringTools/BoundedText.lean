import Mathlib.Data.List.Basic

/-!
# Texts in a buffer of bounded size

A text that fits is kept in front of filler, one cell of which always follows
it; the cells behind the bound belong to others. Appending cuts off what does
not fit, so a sequence of appends is one append of everything.
-/
namespace MonitoringTools

@[ext] structure BoundedText (α : Type*) (room : ℕ) where
  text : List α
  fits : text.length ≤ room

namespace BoundedText
variable {α : Type*} {room : ℕ}

def empty : BoundedText α room := ⟨[], Nat.zero_le room⟩

/-- Append as much as fits. -/
def append (b : BoundedText α room) (xs : List α) : BoundedText α room :=
  ⟨(b.text ++ xs).take room, List.length_take_le _ _⟩

theorem append_text (b : BoundedText α room) (xs : List α) :
    (b.append xs).text = (b.text ++ xs).take room := rfl

@[simp] theorem append_nil (b : BoundedText α room) : b.append [] = b := by
  ext1
  rw [append_text, List.append_nil, List.take_of_length_le b.fits]

theorem append_append (b : BoundedText α room) (xs ys : List α) :
    (b.append xs).append ys = b.append (xs ++ ys) := by
  have hlength : room - ((b.text ++ xs).take room).length = room - (b.text ++ xs).length := by
    rw [List.length_take]
    omega
  ext1
  rw [append_text, append_text, append_text, List.take_append, hlength, List.take_take,
    Nat.min_self, ← List.append_assoc, ← List.take_append]

theorem append_of_full {b : BoundedText α room} (h : room ≤ b.text.length) (xs : List α) :
    b.append xs = b := by
  ext1
  have hlength : b.text.length = room := Nat.le_antisymm b.fits h
  rw [append_text, List.take_append, hlength, Nat.sub_self, List.take_zero, List.append_nil,
    List.take_of_length_le b.fits]

theorem append_singleton_text {b : BoundedText α room} (h : b.text.length < room) (x : α) :
    (b.append [x]).text = b.text ++ [x] := by
  rw [append_text, List.take_of_length_le]
  rw [List.length_append, List.length_singleton]
  exact h

theorem append_singleton_length {b : BoundedText α room} (h : b.text.length < room) (x : α) :
    (b.append [x]).text.length = b.text.length + 1 := by
  rw [append_singleton_text h, List.length_append, List.length_singleton]

variable (filler : α) (others : List α)

/-- The cells of the buffer and those behind it. -/
def cells (b : BoundedText α room) : List α :=
  b.text ++ List.replicate (room + 1 - b.text.length) filler ++ others

theorem cells_empty :
    (empty : BoundedText α room).cells filler others =
      List.replicate (room + 1) filler ++ others := rfl

theorem cells_split (b : BoundedText α room) : b.cells filler others =
    b.text ++ filler :: (List.replicate (room - b.text.length) filler ++ others) := by
  have h := b.fits
  rw [cells, Nat.sub_add_comm h, List.replicate_succ, List.append_assoc, List.cons_append]

theorem cells_set_filler (b : BoundedText α room) :
    (b.cells filler others).set b.text.length filler = b.cells filler others := by
  rw [cells_split, List.set_append_right _ _ (Nat.le_refl _), Nat.sub_self, List.set_cons_zero]

theorem cells_set {b : BoundedText α room} (h : b.text.length < room) (x : α) :
    (b.cells filler others).set b.text.length x = (b.append [x]).cells filler others := by
  rw [cells_split, List.set_append_right _ _ (Nat.le_refl _), Nat.sub_self, List.set_cons_zero, cells,
    append_singleton_length h, append_singleton_text h, Nat.add_sub_add_right]
  simp only [List.append_assoc, List.cons_append, List.nil_append]

/-- A text without filler is what stands before the first filler. -/
theorem takeWhile_cells [DecidableEq α] {b : BoundedText α room} (h : filler ∉ b.text) :
    (b.cells filler others).takeWhile (· ≠ filler) = b.text := by
  have htext : ∀ x ∈ b.text, decide (x ≠ filler) = true := by
    intro x hx
    rw [decide_eq_true_eq]
    rintro rfl
    exact h hx
  rw [cells_split, List.takeWhile_append_of_pos htext, List.takeWhile_cons_of_neg (by simp),
    List.append_nil]

end BoundedText

end MonitoringTools
