import Mathlib.Data.List.TakeWhile
import MonitoringTools.BoundedText
import MonitoringTools.IosnoopProbes

/-!
# What the append helpers leave in the buffer

The helpers append to a bounded text: numbers in decimal, and of a literal its
first forty bytes. The buffer ends up with the text it was meant to hold as
long as no literal loses bytes that would have been seen.
-/
namespace MonitoringTools.ArgumentFormatting
open BpfHelpers FilesystemProbes ArgumentText IosnoopProbes

/-- The canonical decimal renderings. -/
def decimal (n : ℕ) : List UInt8 := bytes (toString n)

def signedDecimal (i : ℤ) : List UInt8 := bytes (toString i)

/-- What a call is meant to append. -/
def text : Piece → List UInt8
  | .lit s => s
  | .u64 v => decimal v.toNat
  | .s64 v => signedDecimal v.toInt

/-- What it appends when there is room. -/
def written : Piece → List UInt8
  | .lit s => s.take 40
  | .u64 v => decimal v.toNat
  | .s64 v => signedDecimal v.toInt

theorem decimal_eq_if (n : ℕ) : decimal n =
    (if n < 10 then [] else decimal (n / 10)) ++ [48 + UInt8.ofNat (n % 10)] := by
  have hdigit : ∀ d < 10, UInt8.ofNat (Nat.digitChar d).toNat = 48 + UInt8.ofNat d := by decide
  simp only [decimal, bytes, Nat.toString_eq_repr, Nat.toList_repr]
  rw [Nat.toDigits_eq_if (by decide)]
  split
  next h => simp [Nat.mod_eq_of_lt h, hdigit n h]
  next => simp [hdigit (n % 10) (Nat.mod_lt _ (by decide))]

theorem signedDecimal_of_nonneg {i : ℤ} (h : 0 ≤ i) : signedDecimal i = decimal i.toNat := by
  simp [signedDecimal, decimal, Int.repr_eq_if, h]

theorem signedDecimal_of_neg {i : ℤ} (h : i < 0) :
    signedDecimal i = 45 :: decimal (-i).toNat := by
  simp only [signedDecimal, decimal, bytes, Int.toString_eq_repr, Int.repr_eq_if, if_neg h.not_ge]
  simp

/-- Enough steps of the digit loop find the decimal rendering backwards. -/
theorem digitsLoop_reverse {fuel : ℕ} {v : UInt64} (hv : v ≠ 0) (h : v.toNat < 10 ^ fuel) :
    (digitsLoop fuel v).reverse = decimal v.toNat := by
  induction fuel generalizing v with
  | zero => exact absurd (UInt64.toNat_inj.mp (Nat.lt_one_iff.mp h)) hv
  | succ fuel ih =>
      have hdigit : (48 : UInt8) + (v % 10).toUInt8 = 48 + UInt8.ofNat (v.toNat % 10) := by
        congr 1
      have hquot : (v / 10).toNat = v.toNat / 10 := rfl
      rw [digitsLoop, if_neg hv, List.reverse_cons, decimal_eq_if, hdigit]
      congr 1
      split
      next hlt =>
          have hzero : v / 10 = 0 := UInt64.toNat_inj.mp (by rw [hquot]; exact Nat.div_eq_of_lt hlt)
          rw [hzero]
          cases fuel <;> rfl
      next hge =>
          have hne : v / 10 ≠ 0 := by
            intro hzero
            have := congrArg UInt64.toNat hzero
            rw [hquot, UInt64.toNat_zero] at this
            omega
          rw [← hquot]
          exact ih hne (by rw [hquot, Nat.div_lt_iff_lt_mul (by decide), ← Nat.pow_succ]; exact h)

section
variable {max : ℕ} (others : List UInt8)

/-- Buffer and position of a helper while a text is in the buffer. -/
def state (b : BoundedText UInt8 (max - 1)) : List UInt8 × ℕ := (b.cells 0 others, b.text.length)

theorem appendDigitsLoop_state (b : BoundedText UInt8 (max - 1)) (ds : List UInt8) :
    appendDigitsLoop max ds (b.cells 0 others) b.text.length = state others (b.append ds) := by
  induction ds generalizing b with
  | nil => rw [BoundedText.append_nil, appendDigitsLoop, state]
  | cons d ds ih =>
      rw [appendDigitsLoop]
      split
      next hfull => rw [BoundedText.append_of_full hfull, state]
      next hroom =>
          rw [Nat.not_le] at hroom
          rw [BoundedText.cells_set 0 others hroom, ← BoundedText.append_singleton_length hroom d,
            ih, BoundedText.append_append, List.singleton_append]

theorem appendLitLoop_eq (fuel : ℕ) (lit dst : List UInt8) (pos : ℕ) :
    appendLitLoop max fuel lit dst pos = appendDigitsLoop max (lit.take fuel) dst pos := by
  induction fuel generalizing lit dst pos with
  | zero => rfl
  | succ fuel ih =>
      cases lit with
      | nil => rfl
      | cons c lit => rw [appendLitLoop, List.take_succ_cons, appendDigitsLoop, ih]

theorem appendLit_state (b : BoundedText UInt8 (max - 1)) (lit : List UInt8) :
    appendLit (b.cells 0 others) b.text.length max lit = state others (b.append (lit.take 40)) := by
  rw [appendLit, appendLitLoop_eq, appendDigitsLoop_state]
  simp only [state, BoundedText.cells_set_filler]

theorem appendU64Dec_state (b : BoundedText UInt8 (max - 1)) (v : UInt64) :
    appendU64Dec (b.cells 0 others) b.text.length max v =
      state others (b.append (decimal v.toNat)) := by
  rw [appendU64Dec]
  split
  next hfull => rw [BoundedText.append_of_full hfull, state]
  next hroom =>
      rw [Nat.not_le] at hroom
      split
      next hzero =>
          subst hzero
          have hdecimal : decimal (0 : UInt64).toNat = [48] := decimal_eq_if 0
          rw [BoundedText.cells_set 0 others hroom, ← BoundedText.append_singleton_length hroom 48,
            BoundedText.cells_set_filler, hdecimal, state]
      next hne =>
          rw [digitsLoop_reverse hne (v.toNat_lt.trans (by decide)), appendDigitsLoop_state]
          simp only [state, BoundedText.cells_set_filler]

theorem toInt_eq_toUInt64 (v : Int64) : v.toInt =
    if v.toUInt64.toNat < 2 ^ 63 then (v.toUInt64.toNat : ℤ) else v.toUInt64.toNat - 2 ^ 64 := by
  have h : v.toInt = _ := BitVec.toInt_eq_toNat_cond v.toBitVec
  have hnat : v.toBitVec.toNat = v.toUInt64.toNat := rfl
  rw [h, hnat]
  split_ifs <;> omega

/-- The magnitude of a negative number survives the wrap at the minimum. -/
theorem toNat_neg_toUInt64 {v : Int64} (h : v.toInt < 0) :
    (-v).toUInt64.toNat = (-v.toInt).toNat := by
  have hlt := v.toUInt64.toNat_lt
  have hcases := toInt_eq_toUInt64 v
  have hsize : UInt64.size = 2 ^ 64 := rfl
  rw [Int64.toUInt64_neg, UInt64.toNat_neg, hsize]
  split_ifs at hcases <;> omega

theorem toNat_toUInt64_of_nonneg {v : Int64} (h : 0 ≤ v.toInt) :
    v.toUInt64.toNat = v.toInt.toNat := by
  have hlt := v.toUInt64.toNat_lt
  have hcases := toInt_eq_toUInt64 v
  split_ifs at hcases <;> omega

theorem appendS64Dec_state (b : BoundedText UInt8 (max - 1)) (v : Int64) :
    appendS64Dec (b.cells 0 others) b.text.length max v =
      state others (b.append (signedDecimal v.toInt)) := by
  rw [appendS64Dec]
  split
  next hneg =>
      have hneg' : v.toInt < 0 := Int64.lt_iff_toInt_lt.mp hneg
      have hsign : signedDecimal v.toInt = [45] ++ decimal (-v).toUInt64.toNat := by
        rw [toNat_neg_toUInt64 hneg']
        exact signedDecimal_of_neg hneg'
      rw [hsign, ← BoundedText.append_append]
      split
      next hroom =>
          rw [BoundedText.cells_set 0 others hroom, ← BoundedText.append_singleton_length hroom 45,
            appendU64Dec_state]
      next hfull => rw [BoundedText.append_of_full (Nat.not_lt.mp hfull), appendU64Dec_state]
  next hpos =>
      have hnonneg : 0 ≤ v.toInt := Int64.le_iff_toInt_le.mp (Int64.not_lt.mp hpos)
      rw [appendU64Dec_state, signedDecimal_of_nonneg hnonneg, toNat_toUInt64_of_nonneg hnonneg]

theorem append_state (b : BoundedText UInt8 (max - 1)) (p : Piece) :
    p.append max (state others b) = state others (b.append (written p)) := by
  cases p with
  | lit s => exact appendLit_state others b s
  | u64 v => exact appendU64Dec_state others b v
  | s64 v => exact appendS64Dec_state others b v

theorem appendAll_state (b : BoundedText UInt8 (max - 1)) (ps : List Piece) :
    appendAll max ps (state others b) = state others (b.append (ps.flatMap written)) := by
  induction ps generalizing b with
  | nil => rw [List.flatMap_nil, BoundedText.append_nil, appendAll, List.foldl_nil]
  | cons p ps ih =>
      rw [appendAll, List.foldl_cons, append_state, ← appendAll, ih, BoundedText.append_append,
        List.flatMap_cons]

/-- A text cut to a buffer. -/
def cut (max : ℕ) (xs : List UInt8) : BoundedText UInt8 (max - 1) := BoundedText.empty.append xs

theorem cut_cells (h : 1 ≤ max) (xs : List UInt8) : (cut max xs).cells 0 others =
    xs.take (max - 1) ++ List.replicate (max - (xs.take (max - 1)).length) 0 ++ others := by
  rw [BoundedText.cells, Nat.sub_add_cancel h]
  rfl

theorem appendAll_zeroed (h : 1 ≤ max) (ps : List Piece) :
    appendAll max ps (List.replicate max 0 ++ others, 0) =
      state others (cut max (ps.flatMap written)) := by
  have hzero : (List.replicate max 0 ++ others, 0) =
      state others (BoundedText.empty : BoundedText UInt8 (max - 1)) := by
    rw [state, BoundedText.cells_empty, Nat.sub_add_cancel h]
    rfl
  rw [hzero, appendAll_state, cut]

end

/-- From the start of a zeroed buffer, the calls leave the first `max - 1`
bytes of the text they are meant to append, and zeros after it. No position
passes the last cell, and what lies behind the buffer stays. -/
def Formats (max : ℕ) (others : List UInt8) (ps : List Piece) : Prop :=
  let shown := (ps.flatMap text).take (max - 1)
  (appendAll max ps (List.replicate max 0 ++ others, 0)).1 =
      shown ++ List.replicate (max - shown.length) 0 ++ others ∧
    ∀ qs, qs <+: ps → (appendAll max qs (List.replicate max 0 ++ others, 0)).2 ≤ max - 1

/-- The C strings among the arguments end at their terminators. -/
def Terminated (ps : List Piece) : Prop := ∀ s, Piece.lit s ∈ ps → 0 ∉ s

theorem zero_notMem_decimal (n : ℕ) : 0 ∉ decimal n := by
  induction n using Nat.strongRecOn with
  | ind n ih =>
      have hdigit : ∀ d < 10, (0 : UInt8) ≠ 48 + UInt8.ofNat d := by decide
      rw [decimal_eq_if, List.mem_append, List.mem_singleton, not_or]
      refine ⟨?_, hdigit _ (Nat.mod_lt _ (by decide))⟩
      split
      next => exact List.not_mem_nil
      next hge => exact ih _ (Nat.div_lt_self (by omega) (by decide))

theorem zero_notMem_signedDecimal (i : ℤ) : 0 ∉ signedDecimal i := by
  by_cases h : 0 ≤ i
  · rw [signedDecimal_of_nonneg h]
    exact zero_notMem_decimal _
  · rw [signedDecimal_of_neg (Int.not_le.mp h), List.mem_cons, not_or]
    exact ⟨by decide, zero_notMem_decimal _⟩

theorem zero_notMem_text {ps : List Piece} (h : Terminated ps) : 0 ∉ ps.flatMap text := by
  intro hmem
  obtain ⟨p, hp, hzero⟩ := List.mem_flatMap.mp hmem
  cases p with
  | lit s => exact h s hp hzero
  | u64 v => exact zero_notMem_decimal _ hzero
  | s64 v => exact zero_notMem_signedDecimal _ hzero

theorem written_subset_text (p : Piece) : written p ⊆ text p := by
  cases p with
  | lit s => exact List.take_subset 40 s
  | u64 v | s64 v => exact List.Subset.refl _

theorem zero_notMem_written {ps : List Piece} (h : Terminated ps) : 0 ∉ ps.flatMap written := by
  intro hmem
  obtain ⟨p, hp, hzero⟩ := List.mem_flatMap.mp hmem
  exact zero_notMem_text h (List.mem_flatMap.mpr ⟨p, hp, written_subset_text p hzero⟩)

/-- The buffer holds the right text when what the calls write agrees with it
as far as the room goes. -/
theorem formats_iff_take {max : ℕ} (others : List UInt8) {ps : List Piece} (hmax : 1 ≤ max)
    (h : Terminated ps) : Formats max others ps ↔
      (ps.flatMap written).take (max - 1) = (ps.flatMap text).take (max - 1) := by
  have hfree : ∀ xs : List UInt8, 0 ∉ xs → 0 ∉ (cut max xs).text :=
    fun xs hxs hzero => hxs (List.mem_of_mem_take hzero)
  constructor
  · rintro ⟨hbuffer, -⟩
    rw [appendAll_zeroed others hmax, ← cut_cells others hmax] at hbuffer
    have htexts := congrArg (List.takeWhile (· ≠ 0)) hbuffer
    rwa [state, BoundedText.takeWhile_cells 0 others (hfree _ (zero_notMem_written h)),
      BoundedText.takeWhile_cells 0 others (hfree _ (zero_notMem_text h))] at htexts
  · intro htake
    refine ⟨?_, fun qs _ => ?_⟩
    · rw [appendAll_zeroed others hmax, state, cut_cells others hmax, htake]
    · rw [appendAll_zeroed others hmax]
      exact (cut max _).fits

/-- With so much room left, no literal loses bytes that would be seen: the
first one of more than forty bytes, if there is one, leaves no room, or the
calls after it happen to write what it loses. -/
def Kept : ℕ → List Piece → Prop
  | _, [] => True
  | room, .lit s :: ps =>
      if s.length ≤ 40 then Kept (room - s.length) ps
      else (s.drop 40 ++ ps.flatMap text).take (room - 40) = (ps.flatMap written).take (room - 40)
  | room, .u64 v :: ps => Kept (room - (decimal v.toNat).length) ps
  | room, .s64 v :: ps => Kept (room - (signedDecimal v.toInt).length) ps

theorem take_append_eq_iff (xs ys zs : List UInt8) (room : ℕ) :
    (xs ++ ys).take room = (xs ++ zs).take room ↔
      ys.take (room - xs.length) = zs.take (room - xs.length) := by
  rw [List.take_append, List.take_append, List.append_cancel_left_eq]

theorem kept_iff (room : ℕ) (ps : List Piece) :
    Kept room ps ↔ (ps.flatMap written).take room = (ps.flatMap text).take room := by
  induction ps generalizing room with
  | nil => exact iff_of_true trivial rfl
  | cons p ps ih =>
      rw [List.flatMap_cons, List.flatMap_cons]
      cases p with
      | lit s =>
          simp only [Kept, written, text]
          split
          next hshort => rw [List.take_of_length_le hshort, take_append_eq_iff, ih]
          next hlong =>
              have hsplit : s ++ ps.flatMap text = s.take 40 ++ (s.drop 40 ++ ps.flatMap text) := by
                rw [← List.append_assoc, List.take_append_drop]
              have hforty : (s.take 40).length = 40 := by
                rw [List.length_take]
                omega
              rw [hsplit, take_append_eq_iff, hforty, eq_comm]
      | u64 v => simp only [Kept, written, text, take_append_eq_iff, ih]
      | s64 v => simp only [Kept, written, text, take_append_eq_iff, ih]

instance (room : ℕ) (ps : List Piece) : Decidable (Kept room ps) :=
  decidable_of_iff _ (kept_iff room ps).symm

theorem kept_of_short {ps : List Piece} (h : ∀ s, Piece.lit s ∈ ps → s.length ≤ 40) (room : ℕ) :
    Kept room ps := by
  induction ps generalizing room with
  | nil => trivial
  | cons p ps ih =>
      have hrest : ∀ room, Kept room ps := ih fun s hs => h s (List.mem_cons_of_mem _ hs)
      cases p with
      | lit s =>
          rw [Kept, if_pos (h s List.mem_cons_self)]
          exact hrest _
      | u64 v | s64 v => exact hrest _

/-- In at most 41 bytes no literal can lose anything. -/
theorem kept_of_small {room : ℕ} (h : room ≤ 40) (ps : List Piece) : Kept room ps := by
  induction ps generalizing room with
  | nil => trivial
  | cons p ps ih =>
      have hrest : ∀ n, Kept (room - n) ps := fun n => ih ((Nat.sub_le _ _).trans h)
      cases p with
      | lit s =>
          rw [Kept, Nat.sub_eq_zero_of_le h]
          split
          next => exact hrest _
          next => rw [List.take_zero, List.take_zero]
      | u64 v | s64 v => exact hrest _

/-- The calls format their text into a buffer if and only if no literal loses
bytes that would be seen. -/
theorem formats_iff_kept {max : ℕ} (others : List UInt8) {ps : List Piece} (hmax : 2 ≤ max)
    (h : Terminated ps) : Formats max others ps ↔ Kept (max - 1) ps := by
  rw [formats_iff_take others (by omega) h, kept_iff]

/-- The minimum of the signed numbers, cut in a buffer of twelve bytes. -/
theorem formats_iff_kept_minimum :
    Formats 12 [255] [.lit (bytes "len="), .s64 (-9223372036854775808)] := by
  refine (formats_iff_kept [255] (by decide) ?_).mpr (kept_of_small (by decide) _)
  intro s hs
  obtain rfl : s = bytes "len=" := by simpa using hs
  decide

/-- A literal of 41 bytes loses the last of them with 86 cells to spare. -/
theorem formats_fails_long_literal :
    ¬ ∀ (max : ℕ) (others : List UInt8) (ps : List Piece), 2 ≤ max → Terminated ps →
      (∀ s, Piece.lit s ∈ ps → s.length ≤ 63) → Formats max others ps := by
  intro h
  have hlit : ∀ s, Piece.lit s ∈ [.lit (List.replicate 41 97)] → s = List.replicate 41 97 := by
    intro s hs
    exact Piece.lit.inj (List.mem_singleton.mp hs)
  have hterminated : Terminated [.lit (List.replicate 41 97)] := by
    intro s hs
    rw [hlit s hs]
    decide
  have hformats := h 128 [] [.lit (List.replicate 41 97)] (by decide) hterminated (by
    intro s hs
    rw [hlit s hs]
    decide)
  rw [formats_iff_take [] (by decide) hterminated] at hformats
  exact absurd hformats (by decide)

theorem ofString_cells {max : ℕ} (hmax : 1 ≤ max) {xs : List UInt8} (h : 0 ∉ xs) :
    (Buffer.ofString max xs).1 = (cut max xs).cells 0 [] := by
  have hall : ∀ x ∈ xs, decide (x ≠ 0) = true := by
    intro x hx
    rw [decide_eq_true_eq]
    rintro rfl
    exact h hx
  rw [cut_cells [] hmax, List.append_nil]
  simp only [Buffer.ofString, List.takeWhile_eq_self_iff.mpr hall]

theorem format_cells {max : ℕ} (hmax : 1 ≤ max) (ps : List Piece) :
    (format max ps).1 = (cut max (ps.flatMap written)).cells 0 [] := by
  have hrun := appendAll_zeroed [] hmax ps
  rw [List.append_nil] at hrun
  exact congrArg Prod.fst hrun

theorem format_eq_ofString_iff {max : ℕ} {ps : List Piece} (hmax : 1 ≤ max) (h : Terminated ps) :
    format max ps = Buffer.ofString max (ps.flatMap text) ↔ Kept (max - 1) ps := by
  rw [kept_iff, ← formats_iff_take [] hmax h, Subtype.ext_iff, format_cells hmax,
    ofString_cells hmax (zero_notMem_text h), cut_cells [] hmax (ps.flatMap text), Formats,
    appendAll_zeroed [] hmax ps]
  refine (and_iff_left ?_).symm
  intro qs _
  rw [appendAll_zeroed [] hmax]
  exact (cut max _).fits

theorem format_labelled_numbers {label label' : List UInt8} (h : label.length ≤ 40 ∧ 0 ∉ label)
    (h' : label'.length ≤ 40 ∧ 0 ∉ label') (v : UInt64) (v' : Int64) :
    format 128 [.lit label, .u64 v, .lit label', .s64 v'] = Buffer.ofString 128
      (label ++ decimal v.toNat ++ label' ++ signedDecimal v'.toInt) := by
  have hlit : ∀ s, Piece.lit s ∈ [.lit label, .u64 v, .lit label', .s64 v'] →
      s.length ≤ 40 ∧ 0 ∉ s := by
    intro s hs
    obtain rfl | rfl : s = label ∨ s = label' := by simpa using hs
    · exact h
    · exact h'
  have htext : [.lit label, .u64 v, .lit label', .s64 v'].flatMap text =
      label ++ decimal v.toNat ++ label' ++ signedDecimal v'.toInt := by
    simp only [List.flatMap_cons, List.flatMap_nil, text, List.append_nil, List.append_assoc]
  rw [← htext, format_eq_ofString_iff (by decide) fun s hs => (hlit s hs).2]
  exact kept_of_short (fun s hs => (hlit s hs).1) _

/-- So the read and write handlers show their count and position. -/
theorem transferCtx_args {type : UInt8} {file : Option File} {count : UInt64}
    {pos : Option Int64} {op : OpCtx} (h : transferCtx type file count pos = some op) :
    op.args = Buffer.ofString 128 (bytes "count=" ++ decimal count.toNat ++ bytes " pos=" ++
      signedDecimal (pos.getD (-1)).toInt) := by
  obtain rfl := Option.some.inj h
  exact format_labelled_numbers (by decide) (by decide) count (pos.getD (-1))

/-- A label and a name: the name shows in full up to forty bytes. -/
theorem kept_labelled_iff {label name : List UInt8} {room : ℕ} (hlabel : label.length ≤ 40)
    (hroom : label.length + 40 < room) :
    Kept room [.lit label, .lit name] ↔ name.length ≤ 40 := by
  rw [Kept, if_pos hlabel, Kept]
  split
  next hname => exact iff_of_true trivial hname
  next hname =>
      refine iff_of_false (fun hlost => ?_) hname
      have hlength := congrArg List.length hlost
      simp only [List.flatMap_nil, List.append_nil, List.take_nil, List.length_nil,
        List.length_take, List.length_drop] at hlength
      omega

theorem format_labelled_iff {label name : List UInt8} (hlabel : label.length ≤ 40)
    (hlabel' : 0 ∉ label) (hname : 0 ∉ name) :
    format 128 [.lit label, .lit name] = Buffer.ofString 128 (label ++ name) ↔
      name.length ≤ 40 := by
  have hterminated : Terminated [.lit label, .lit name] := by
    intro s hs
    obtain rfl | rfl : s = label ∨ s = name := by simpa using hs
    · exact hlabel'
    · exact hname
  have htext : [Piece.lit label, Piece.lit name].flatMap text = label ++ name := by
    simp [text]
  rw [← htext, format_eq_ofString_iff (by decide) hterminated]
  exact kept_labelled_iff hlabel (by omega)

theorem zero_notMem_takeWhile (xs : List UInt8) : 0 ∉ xs.takeWhile (· ≠ 0) := by
  intro hzero
  have hne := List.mem_takeWhile_imp hzero
  exact absurd hne (by decide)

/-- The symlink handler copies 63 bytes of the target and shows 40 of them. -/
theorem traceVfsSymlinkEnter_args {dir : Option Inode} {dentry : Option Dentry}
    {oldname : Option (List UInt8)} {op : OpCtx} (h : traceVfsSymlinkEnter dir dentry oldname = some op)
    {target : List UInt8}
    (htarget : target = (Buffer.ofString 64 (oldname.getD [])).1.takeWhile (· ≠ 0)) :
    op.args = Buffer.ofString 128 (bytes "target=" ++ target) ↔ target.length ≤ 40 := by
  obtain rfl := Option.some.inj h
  subst htarget
  exact format_labelled_iff (by decide) (by decide) (zero_notMem_takeWhile _)

/-- So does the link handler with the old name. -/
theorem traceVfsLinkKp_args {oldDentry newDentry : Option Dentry} {dir : Option Inode}
    {op : OpCtx} (h : traceVfsLinkKp oldDentry dir newDentry = some op) {oldName : List UInt8}
    (hold : oldName = (readDentryName oldDentry 64).1.takeWhile (· ≠ 0)) :
    op.args = Buffer.ofString 128 (bytes "old=" ++ oldName) ↔ oldName.length ≤ 40 := by
  obtain rfl := Option.some.inj h
  subst hold
  exact format_labelled_iff (by decide) (by decide) (zero_notMem_takeWhile _)

end MonitoringTools.ArgumentFormatting
