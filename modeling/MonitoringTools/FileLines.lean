import Mathlib.Data.List.Basic
import Mathlib.Data.List.Induction

/-!
# Reading a text line by line into a bounded buffer

A read takes characters up to and with the next line end, but no more than the buffer
holds: a longer line arrives in pieces. Whatever occurs in a piece occurs in the text, and
whatever occurs near enough to the beginning of a line occurs in one piece.
-/
namespace MonitoringTools.FileLines

variable {α : Type*} (lineEnd : α → Bool)

/-- One read of at most so many characters, and what is left of the text. -/
def readLine : ℕ → List α → List α × List α
  | 0, s => ([], s)
  | _ + 1, [] => ([], [])
  | n + 1, c :: s =>
      if lineEnd c then ([c], s)
      else
        let rest := readLine n s
        (c :: rest.1, rest.2)

def piecesFuel (limit : ℕ) : ℕ → List α → List (List α)
  | 0, _ => []
  | _ + 1, [] => []
  | fuel + 1, c :: s =>
      let piece := readLine lineEnd limit (c :: s)
      piece.1 :: piecesFuel limit fuel piece.2

/-- The pieces that reads until the end of the text return. -/
def pieces (limit : ℕ) (s : List α) : List (List α) := piecesFuel lineEnd limit s.length s

variable {lineEnd}

theorem readLine_append (n : ℕ) (s : List α) :
    (readLine lineEnd n s).1 ++ (readLine lineEnd n s).2 = s := by
  induction n generalizing s with
  | zero => rfl
  | succ n ih =>
      cases s with
      | nil => rfl
      | cons c s =>
          rw [readLine]
          split
          · rfl
          · exact congrArg (c :: ·) (ih s)

theorem length_readLine_lt {limit : ℕ} (hlimit : 0 < limit) (c : α) (s : List α) :
    (readLine lineEnd limit (c :: s)).2.length < (c :: s).length := by
  cases limit with
  | zero => exact absurd hlimit (Nat.lt_irrefl 0)
  | succ n =>
      rw [readLine]
      split
      · exact Nat.lt_succ_self _
      · have hlength := congrArg List.length (@readLine_append _ lineEnd n s)
        rw [List.length_append] at hlength
        simp only [List.length_cons]
        omega

theorem piecesFuel_congr {limit : ℕ} (hlimit : 0 < limit) {f g : ℕ} {s : List α}
    (hf : s.length ≤ f) (hg : s.length ≤ g) :
    piecesFuel lineEnd limit f s = piecesFuel lineEnd limit g s := by
  induction f generalizing g s with
  | zero =>
      obtain rfl := List.eq_nil_of_length_eq_zero (Nat.le_zero.mp hf)
      cases g <;> rfl
  | succ f ih =>
      cases s with
      | nil => cases g <;> rfl
      | cons c s =>
          cases g with
          | zero => simp at hg
          | succ g =>
              have hless := @length_readLine_lt _ lineEnd _ hlimit c s
              simp only [List.length_cons] at hf hg hless
              rw [piecesFuel, piecesFuel, @ih g _ (by omega) (by omega)]

theorem pieces_cons {limit : ℕ} (hlimit : 0 < limit) (c : α) (s : List α) :
    pieces lineEnd limit (c :: s) = (readLine lineEnd limit (c :: s)).1 ::
      pieces lineEnd limit (readLine lineEnd limit (c :: s)).2 := by
  have hless := @length_readLine_lt _ lineEnd _ hlimit c s
  rw [pieces, List.length_cons, piecesFuel, pieces,
    piecesFuel_congr hlimit (Nat.le_of_lt_succ hless) (Nat.le_refl _)]

/-- The rule of induction over the pieces of a text. -/
theorem pieces_induction {limit : ℕ} (hlimit : 0 < limit) {P : List α → Prop} (hnil : P [])
    (hcons : ∀ c s, P (readLine lineEnd limit (c :: s)).2 → P (c :: s)) (s : List α) : P s := by
  induction hn : s.length using Nat.strongRecOn generalizing s with
  | ind n ih =>
      cases s with
      | nil => exact hnil
      | cons c s => exact hcons c s (ih _ (hn ▸ length_readLine_lt hlimit c s) _ rfl)

theorem pieces_flatten {limit : ℕ} (hlimit : 0 < limit) (s : List α) :
    (pieces lineEnd limit s).flatten = s := by
  induction s using @pieces_induction _ lineEnd limit hlimit with
  | hnil => rfl
  | hcons c s ih => rw [pieces_cons hlimit, List.flatten_cons, ih, readLine_append]

theorem infix_of_mem_pieces {limit : ℕ} (hlimit : 0 < limit) {s piece : List α}
    (h : piece ∈ pieces lineEnd limit s) : piece <:+: s := by
  have hinfix := List.infix_of_mem_flatten h
  rwa [pieces_flatten hlimit] at hinfix

/-- A text that stops at the end of a line, or is empty. -/
def Closed (lineEnd : α → Bool) (s : List α) : Prop := ∀ c ∈ s.getLast?, lineEnd c = true

theorem Closed.suffix {s t : List α} (h : Closed lineEnd (s ++ t)) : Closed lineEnd t := by
  cases t with
  | nil => exact fun _ hc => by cases hc
  | cons c t =>
      intro d hd
      exact h d (by rw [List.getLast?_append_of_ne_nil _ (List.cons_ne_nil c t)]; exact hd)

/-- A read that starts in closed text stays in it. -/
theorem readLine_closed {n : ℕ} {s : List α} (h : Closed lineEnd s) (hs : s ≠ []) (t : List α) :
    readLine lineEnd n (s ++ t) =
      ((readLine lineEnd n s).1, (readLine lineEnd n s).2 ++ t) := by
  induction n generalizing s with
  | zero => rfl
  | succ n ih =>
      cases s with
      | nil => exact absurd rfl hs
      | cons c s =>
          simp only [List.cons_append, readLine]
          split
          · rfl
          · next hopen =>
              cases s with
              | nil => exact absurd (h c rfl) hopen
              | cons d s => rw [ih (Closed.suffix (s := [c]) h) (List.cons_ne_nil d s)]

theorem pieces_append {limit : ℕ} (hlimit : 0 < limit) {s : List α} (h : Closed lineEnd s)
    (t : List α) : pieces lineEnd limit (s ++ t) =
      pieces lineEnd limit s ++ pieces lineEnd limit t := by
  induction s using @pieces_induction _ lineEnd limit hlimit with
  | hnil => rfl
  | hcons c s ih =>
      have hrest : Closed lineEnd (readLine lineEnd limit (c :: s)).2 :=
        Closed.suffix ((readLine_append limit (c :: s)).symm ▸ h)
      have hread := @readLine_closed _ lineEnd limit _ h (List.cons_ne_nil c s) t
      rw [List.cons_append, pieces_cons hlimit, pieces_cons hlimit, List.cons_append,
        ← List.cons_append, hread, ih hrest]

theorem readLine_open {n : ℕ} {s : List α} (h : ∀ c ∈ s, lineEnd c = false) (hn : s.length ≤ n)
    (t : List α) : s <+: (readLine lineEnd n (s ++ t)).1 := by
  induction s generalizing n with
  | nil => exact List.nil_prefix
  | cons c s ih =>
      cases n with
      | zero => simp at hn
      | succ n =>
          obtain ⟨hc, hs⟩ := List.forall_mem_cons.mp h
          rw [List.cons_append, readLine, hc]
          exact List.cons_prefix_cons.mpr ⟨rfl, ih hs (Nat.le_of_succ_le_succ hn)⟩

theorem exists_piece_containing {limit : ℕ} {before start needle after : List α}
    (hclosed : Closed lineEnd before) (hopen : ∀ c ∈ start ++ needle, lineEnd c = false)
    (hfits : (start ++ needle).length ≤ limit) (hne : needle ≠ []) :
    ∃ piece ∈ pieces lineEnd limit (before ++ (start ++ needle ++ after)), needle <:+: piece := by
  have hlimit : 0 < limit := by
    have := List.length_pos_iff.mpr hne
    rw [List.length_append] at hfits
    omega
  obtain ⟨c, s, hs⟩ : ∃ c s, start ++ needle = c :: s :=
    List.exists_cons_of_ne_nil (by simp [hne])
  have hfirst := readLine_open hopen hfits after
  rw [pieces_append hlimit hclosed]
  rw [hs, List.cons_append] at hfirst ⊢
  refine ⟨_, List.mem_append_right _ (pieces_cons hlimit c _ ▸ List.mem_cons_self), ?_⟩
  have hneedle : needle <:+: c :: s := ⟨start, [], by rw [List.append_nil, hs]⟩
  exact hneedle.trans hfirst.isInfix

/-- The lines of a text, with their ends: a buffer for the whole text breaks none. -/
def lines (lineEnd : α → Bool) (s : List α) : List (List α) := pieces lineEnd s.length s

theorem exists_closed_split (s : List α) :
    ∃ before start, s = before ++ start ∧ Closed lineEnd before ∧
      ∀ c ∈ start, lineEnd c = false := by
  induction s using List.reverseRecOn with
  | nil => exact ⟨[], [], rfl, nofun, nofun⟩
  | append_singleton s c ih =>
      cases hc : lineEnd c with
      | true =>
          refine ⟨s ++ [c], [], (List.append_nil _).symm, fun d hd => ?_, nofun⟩
          rw [List.getLast?_concat, Option.mem_some_iff] at hd
          exact hd ▸ hc
      | false =>
          obtain ⟨before, start, rfl, hclosed, hopen⟩ := ih
          refine ⟨before, start ++ [c], List.append_assoc _ _ _, hclosed, fun d hd => ?_⟩
          rcases List.mem_append.mp hd with hd | hd
          · exact hopen d hd
          · rw [List.mem_singleton.mp hd, hc]

theorem readLine_fits {n : ℕ} {s : List α} (hn : s.length ≤ n) :
    (∀ c ∈ (readLine lineEnd n s).1.dropLast, lineEnd c = false) ∧
      (Closed lineEnd (readLine lineEnd n s).1 ∨ (readLine lineEnd n s).2 = []) := by
  induction s generalizing n with
  | nil => cases n <;> exact ⟨nofun, .inr rfl⟩
  | cons c s ih =>
      cases n with
      | zero => simp at hn
      | succ n =>
          obtain ⟨hopen, hrest⟩ := @ih n (Nat.le_of_succ_le_succ hn)
          cases hc : lineEnd c with
          | true =>
              simp only [readLine, hc, if_true]
              refine ⟨nofun, .inl fun d hd => ?_⟩
              rw [List.getLast?_singleton, Option.mem_some_iff] at hd
              exact hd ▸ hc
          | false =>
              simp only [readLine, hc, Bool.false_eq_true, if_false]
              cases hline : (readLine lineEnd n s).1 with
              | nil =>
                  refine ⟨nofun, .inr ?_⟩
                  cases s with
                  | nil => cases n <;> rfl
                  | cons d s =>
                      cases n with
                      | zero => simp at hn
                      | succ n =>
                          rw [readLine] at hline
                          split at hline <;> cases hline
              | cons d line =>
                  rw [hline] at hopen hrest
                  refine ⟨?_, hrest.imp_left fun h e he => h e he⟩
                  rw [List.dropLast_cons_cons, List.forall_mem_cons]
                  exact ⟨hc, hopen⟩

theorem Closed.append {s t : List α} (hs : Closed lineEnd s) (ht : Closed lineEnd t) :
    Closed lineEnd (s ++ t) := by
  cases t with
  | nil => rwa [List.append_nil]
  | cons c t =>
      intro d hd
      rw [List.getLast?_append_of_ne_nil _ (List.cons_ne_nil c t)] at hd
      exact ht d hd

theorem mem_pieces_split {limit : ℕ} {s line : List α} (hn : s.length ≤ limit)
    (h : line ∈ pieces lineEnd limit s) :
    ∃ before after, s = before ++ (line ++ after) ∧ Closed lineEnd before ∧
      ∀ c ∈ line.dropLast, lineEnd c = false := by
  have hlimit : 0 < limit := by
    cases s with
    | nil => cases h
    | cons c s => exact Nat.lt_of_lt_of_le (Nat.succ_pos _) hn
  induction s using @pieces_induction _ lineEnd limit hlimit with
  | hnil => cases h
  | hcons c s ih =>
      obtain ⟨hopen, hend⟩ := @readLine_fits _ lineEnd limit (c :: s) hn
      have happend := @readLine_append _ lineEnd limit (c :: s)
      rw [pieces_cons hlimit, List.mem_cons] at h
      rcases h with rfl | h
      · exact ⟨[], _, happend.symm, nofun, hopen⟩
      · have hless := @length_readLine_lt _ lineEnd _ hlimit c s
        obtain ⟨before, after, hrest, hclosed, hline⟩ := ih (by omega) h
        refine ⟨(readLine lineEnd limit (c :: s)).1 ++ before, after, ?_, ?_, hline⟩
        · rw [List.append_assoc, ← hrest, happend]
        · rcases hend with hend | hend
          · exact hend.append hclosed
          · rw [hend] at h
            cases h

/-- If the lines that contain something do so near their beginnings, bounded reads find it
wherever it is. -/
theorem exists_piece_containing_iff {limit : ℕ} {s needle : List α} (hlimit : 0 < limit)
    (hne : needle ≠ []) (hopen : ∀ c ∈ needle, lineEnd c = false)
    (hnear : ∀ line ∈ lines lineEnd s, needle <:+: line → needle <:+: line.take limit) :
    (∃ piece ∈ pieces lineEnd limit s, needle <:+: piece) ↔ needle <:+: s := by
  refine ⟨fun ⟨piece, hpiece, hneedle⟩ => hneedle.trans (infix_of_mem_pieces hlimit hpiece),
    fun ⟨a, b, hs⟩ => ?_⟩
  obtain ⟨before, start, rfl, hclosed, hstart⟩ := @exists_closed_split _ lineEnd a
  have hlength : (start ++ needle).length ≤ s.length := by
    rw [← hs]
    simp only [List.length_append]
    omega
  have hall : ∀ c ∈ start ++ needle, lineEnd c = false := fun c hc =>
    (List.mem_append.mp hc).elim (hstart c) (hopen c)
  obtain ⟨line, hline, hinfix⟩ :=
    @exists_piece_containing _ lineEnd _ _ _ _ b hclosed hall hlength hne
  have hjoin : before ++ (start ++ needle ++ b) = s := by
    rw [← hs]
    simp only [List.append_assoc]
  rw [hjoin] at hline
  obtain ⟨first, rest, hsplit, hclosed', hdrop⟩ := mem_pieces_split (Nat.le_refl _) hline
  obtain ⟨start', tail, htake⟩ := hnear line hline hinfix
  have hwhole : start' ++ needle ++ (tail ++ line.drop limit) = line := by
    rw [← List.append_assoc, htake, List.take_append_drop]
  -- the end of the line is not before the needle
  have hstart' : ∀ c ∈ start' ++ needle, lineEnd c = false := by
    refine fun c hc => (List.mem_append.mp hc).elim (fun hc => hdrop c ?_) (hopen c)
    rw [← hwhole, List.append_assoc, List.dropLast_append_of_ne_nil (by simp [hne])]
    exact List.mem_append_left _ hc
  have hfits : (start' ++ needle).length ≤ limit := by
    have h := congrArg List.length htake
    rw [List.length_append, List.length_take] at h
    omega
  have hfound := @exists_piece_containing _ lineEnd limit _ _ _ (tail ++ line.drop limit ++ rest)
    hclosed' hstart' hfits hne
  rwa [← List.append_assoc (start' ++ needle), hwhole, ← hsplit] at hfound

end MonitoringTools.FileLines
