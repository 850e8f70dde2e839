import MonitoringTools.BpfHelpers

/-!
# The argument string of an event

The three append helpers write into a fixed buffer and hand the next position
on. A buffer is the list of its bytes; a write past its end is lost, so the
buffer may be taken longer than the bound the helpers are given. A literal is
the list of bytes before its terminator.
-/
namespace MonitoringTools.ArgumentText
open BpfHelpers

/-- The copying loop of `append_lit`: at most `fuel` bytes, never past the bound. -/
def appendLitLoop (max : ℕ) : ℕ → List UInt8 → List UInt8 → ℕ → List UInt8 × ℕ
  | 0, _, dst, pos => (dst, pos)
  | _ + 1, [], dst, pos => (dst, pos)
  | fuel + 1, c :: lit, dst, pos =>
      if max - 1 ≤ pos then (dst, pos) else appendLitLoop max fuel lit (dst.set pos c) (pos + 1)

def appendLit (dst : List UInt8) (pos max : ℕ) (lit : List UInt8) : List UInt8 × ℕ :=
  let r := appendLitLoop max 40 lit dst pos
  (r.1.set r.2 0, r.2)

/-- Digits of a positive number, least significant first, at most `fuel` of them. -/
def digitsLoop : ℕ → UInt64 → List UInt8
  | 0, _ => []
  | fuel + 1, v => if v = 0 then [] else (48 + (v % 10).toUInt8) :: digitsLoop fuel (v / 10)

def appendDigitsLoop (max : ℕ) : List UInt8 → List UInt8 → ℕ → List UInt8 × ℕ
  | [], dst, pos => (dst, pos)
  | d :: ds, dst, pos =>
      if max - 1 ≤ pos then (dst, pos) else appendDigitsLoop max ds (dst.set pos d) (pos + 1)

def appendU64Dec (dst : List UInt8) (pos max : ℕ) (v : UInt64) : List UInt8 × ℕ :=
  if max - 1 ≤ pos then (dst, pos)
  else if v = 0 then ((dst.set pos 48).set (pos + 1) 0, pos + 1)
  else
    let r := appendDigitsLoop max (digitsLoop 20 v).reverse dst pos
    (r.1.set r.2 0, r.2)

/-- The minus sign is dropped when it does not fit; the magnitude wraps. -/
def appendS64Dec (dst : List UInt8) (pos max : ℕ) (v : Int64) : List UInt8 × ℕ :=
  if v < 0 then
    if pos < max - 1 then appendU64Dec (dst.set pos 45) (pos + 1) max (-v).toUInt64
    else appendU64Dec dst pos max (-v).toUInt64
  else appendU64Dec dst pos max v.toUInt64

inductive Piece where
  | lit (s : List UInt8)
  | u64 (v : UInt64)
  | s64 (v : Int64)
  deriving DecidableEq, Repr

def Piece.append (max : ℕ) (r : List UInt8 × ℕ) : Piece → List UInt8 × ℕ
  | .lit s => appendLit r.1 r.2 max s
  | .u64 v => appendU64Dec r.1 r.2 max v
  | .s64 v => appendS64Dec r.1 r.2 max v

theorem appendLitLoop_length (max fuel : ℕ) (lit dst : List UInt8) (pos : ℕ) :
    (appendLitLoop max fuel lit dst pos).1.length = dst.length := by
  induction fuel generalizing lit dst pos with
  | zero => rfl
  | succ fuel ih =>
      cases lit with
      | nil => rfl
      | cons c lit =>
          simp only [appendLitLoop]
          split
          · rfl
          · rw [ih, List.length_set]

theorem appendDigitsLoop_length (max : ℕ) (ds dst : List UInt8) (pos : ℕ) :
    (appendDigitsLoop max ds dst pos).1.length = dst.length := by
  induction ds generalizing dst pos with
  | nil => rfl
  | cons d ds ih =>
      simp only [appendDigitsLoop]
      split
      · rfl
      · rw [ih, List.length_set]

theorem appendU64Dec_length (dst : List UInt8) (pos max : ℕ) (v : UInt64) :
    (appendU64Dec dst pos max v).1.length = dst.length := by
  unfold appendU64Dec
  split_ifs <;> simp [appendDigitsLoop_length]

theorem Piece.append_length (max : ℕ) (r : List UInt8 × ℕ) (p : Piece) :
    (p.append max r).1.length = r.1.length := by
  cases p with
  | lit s => simp [Piece.append, appendLit, appendLitLoop_length]
  | u64 v => exact appendU64Dec_length _ _ _ _
  | s64 v =>
      simp only [Piece.append, appendS64Dec]
      split_ifs <;> simp [appendU64Dec_length]

/-- A sequence of calls threaded through the position. -/
def appendAll (max : ℕ) (ps : List Piece) (r : List UInt8 × ℕ) : List UInt8 × ℕ :=
  ps.foldl (Piece.append max) r

theorem appendAll_length (max : ℕ) (ps : List Piece) (r : List UInt8 × ℕ) :
    (appendAll max ps r).1.length = r.1.length := by
  induction ps generalizing r with
  | nil => rfl
  | cons p ps ih => exact (ih _).trans (p.append_length max r)

/-- The argument string a handler leaves in its zeroed buffer. -/
def format (max : ℕ) (ps : List Piece) : Buffer max :=
  ⟨(appendAll max ps ((Buffer.zero max).1, 0)).1, by rw [appendAll_length, (Buffer.zero max).2]⟩

example : (format 16 [.lit (bytes "len="), .u64 40, .lit (bytes " x="), .s64 (-7)]).1.take 12 =
    bytes "len=40 x=-7" ++ [0] := by decide

end MonitoringTools.ArgumentText
