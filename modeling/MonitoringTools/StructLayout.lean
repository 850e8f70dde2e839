import Mathlib.Data.List.Basic

/-!
# The layout of a C structure

The fields of a structure follow each other in memory, each at the next multiple of its
alignment. What stands in the gaps between them is arbitrary.
-/
namespace MonitoringTools.StructLayout

structure Field where
  size : ℕ
  align : ℕ
  deriving DecidableEq, Repr

/-- The next multiple of an alignment. -/
def alignUp (pos align : ℕ) : ℕ := (pos + align - 1) / align * align

/-- The offsets of fields that stand from a position on. -/
def offsetsFrom : ℕ → List Field → List ℕ
  | _, [] => []
  | pos, f :: fs => alignUp pos f.align :: offsetsFrom (alignUp pos f.align + f.size) fs

def offsets (fs : List Field) : List ℕ := offsetsFrom 0 fs

/-- Where fields that stand from a position on end. -/
def endFrom : ℕ → List Field → ℕ
  | pos, [] => pos
  | pos, f :: fs => endFrom (alignUp pos f.align + f.size) fs

theorem offsetsFrom_append (pos : ℕ) (fs gs : List Field) :
    offsetsFrom pos (fs ++ gs) = offsetsFrom pos fs ++ offsetsFrom (endFrom pos fs) gs := by
  induction fs generalizing pos with
  | nil => rfl
  | cons f fs ih => rw [List.cons_append, offsetsFrom, ih, offsetsFrom, endFrom, List.cons_append]

@[simp] theorem length_offsetsFrom (pos : ℕ) (fs : List Field) :
    (offsetsFrom pos fs).length = fs.length := by
  induction fs generalizing pos with
  | nil => rfl
  | cons f fs ih => rw [offsetsFrom, List.length_cons, ih, List.length_cons]

section
variable {B : Type*} (old : ℕ → B)

/-- Fields with their contents over old memory, from a position on. -/
def contentsFrom : ℕ → List Field → List (List B) → List B
  | pos, f :: fs, v :: vs =>
      (List.range' pos (alignUp pos f.align - pos)).map old ++ v ++
        contentsFrom (alignUp pos f.align + f.size) fs vs
  | _, _, _ => []

def contents (fs : List Field) (vs : List (List B)) : List B := contentsFrom old 0 fs vs

/-- The bytes at an offset. -/
def read (data : List B) (offset size : ℕ) : List B := (data.drop offset).take size

/-- Every value fills its field. -/
def Fits (fs : List Field) (vs : List (List B)) : Prop :=
  List.Forall₂ (fun f v => 0 < f.align ∧ v.length = f.size) fs vs

theorem le_alignUp (pos : ℕ) {align : ℕ} (h : 0 < align) : pos ≤ alignUp pos align := by
  have hmod := Nat.div_add_mod (pos + align - 1) align
  have hless := Nat.mod_lt (pos + align - 1) h
  rw [Nat.mul_comm] at hmod
  unfold alignUp
  omega

variable {old}

theorem read_append {block rest : List B} {offset size : ℕ} (h : block.length ≤ offset) :
    read (block ++ rest) offset size = read rest (offset - block.length) size := by
  rw [read, read, List.drop_append, List.drop_eq_nil_of_le h, List.nil_append]

theorem read_head (v rest : List B) : read (v ++ rest) 0 v.length = v := by
  rw [read, List.drop_zero, List.take_left]

/-- Every field reads back at its offset. -/
theorem read_contentsFrom {pos : ℕ} {fs : List Field} {vs : List (List B)} (h : Fits fs vs)
    {i o : ℕ} {v : List B} (ho : (offsetsFrom pos fs)[i]? = some o) (hv : vs[i]? = some v) :
    pos ≤ o ∧ read (contentsFrom old pos fs vs) (o - pos) v.length = v := by
  induction h generalizing pos i with
  | nil => simp at hv
  | @cons f w fs vs hfirst hrest ih =>
      have hle := le_alignUp pos hfirst.1
      have hgap : ((List.range' pos (alignUp pos f.align - pos)).map old).length =
          alignUp pos f.align - pos := by simp
      rw [contentsFrom, List.append_assoc]
      cases i with
      | zero =>
          obtain rfl : alignUp pos f.align = o := by simpa [offsetsFrom] using ho
          obtain rfl : w = v := by simpa using hv
          rw [read_append (Nat.le_of_eq hgap), hgap, Nat.sub_self]
          exact ⟨hle, read_head w _⟩
      | succ i =>
          obtain ⟨hfar, hread⟩ := ih (by simpa [offsetsFrom] using ho) (by simpa using hv)
          have hbehind : w.length ≤ o - pos - (alignUp pos f.align - pos) := by
            rw [hfirst.2]
            omega
          rw [read_append (by omega), hgap, read_append hbehind, hfirst.2]
          refine ⟨by omega, ?_⟩
          rwa [show o - pos - (alignUp pos f.align - pos) - f.size =
            o - (alignUp pos f.align + f.size) by omega]

theorem read_contents {fs : List Field} {vs : List (List B)} (h : Fits fs vs) {i o : ℕ}
    {v : List B} (ho : (offsets fs)[i]? = some o) (hv : vs[i]? = some v) :
    read (contents old fs vs) o v.length = v :=
  (read_contentsFrom h ho hv).2

end

end MonitoringTools.StructLayout
