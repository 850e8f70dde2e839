import Mathlib.Data.List.TakeWhile

/-!
# Formatted scanning of white-space separated fields

Every directive first skips white space, so what a scanner reads depends only
on the words of its input. A directive that stops inside a word leaves the
rest of it to the next one: from then on the fields it reads are shifted.
-/
namespace MonitoringTools.Scanning
variable {α : Type*} (space : α → Bool)

/-- `%*s`: a field that is not stored. -/
def skipField (s : List α) : Option (List α) :=
  match s.dropWhile space with
  | [] => none
  | c :: rest => some ((c :: rest).dropWhile (!space ·))

/-- ` %c`: the next character that is no white space. -/
def readChar (s : List α) : Option (α × List α) :=
  match s.dropWhile space with
  | [] => none
  | c :: rest => some (c, rest)

/-- `%s` with a width: at most so many characters of a field. -/
def readField (width : ℕ) (s : List α) : Option (List α × List α) :=
  match s.dropWhile space with
  | [] => none
  | c :: rest =>
      let field := ((c :: rest).takeWhile (!space ·)).take width
      some (field, (c :: rest).drop field.length)

/-- `%*s %c %s`, or nothing when one of the three finds the end of the input. -/
def scanEntry (width : ℕ) (s : List α) : Option (α × List α × List α) := do
  let s ← skipField space s
  let (c, s) ← readChar space s
  let (field, s) ← readField space width s
  pure (c, field, s)

/-- The maximal runs without white space. -/
def words (s : List α) : List (List α) := (s.splitOnP space).filter (!·.isEmpty)

/-- What is left of a word comes before the other words. -/
def rejoin (w : List α) (ws : List (List α)) : List (List α) := if w.isEmpty then ws else w :: ws

variable {space}

@[simp] theorem words_nil : words space [] = [] := by simp [words]

/-- White space separates the words before it from those after it. -/
theorem words_append_cons (s s' : List α) {c : α} (hc : space c = true) :
    words space (s ++ c :: s') = words space s ++ words space s' := by
  rw [words, List.splitOnP_append_cons s s' hc, List.filter_append]
  rfl

theorem words_cons {c : α} (hc : space c = true) (s : List α) :
    words space (c :: s) = words space s := by
  have h := words_append_cons [] s hc
  rwa [List.nil_append, words_nil, List.nil_append] at h

theorem words_of_graph {w : List α} (hw : ∀ c ∈ w, space c = false) :
    words space w = rejoin w [] := by
  rw [words, List.splitOnP_eq_singleton hw, rejoin]
  cases w <;> rfl

theorem words_append {w s : List α} (hw : ∀ c ∈ w, space c = false)
    (hs : ∀ c ∈ s.head?, space c = true) :
    words space (w ++ s) = rejoin w (words space s) := by
  cases s with
  | nil => rw [List.append_nil, words_nil, words_of_graph hw]
  | cons c s =>
      have hc : space c = true := hs c rfl
      rw [words_append_cons w s hc, words_cons hc, words_of_graph hw, rejoin, rejoin]
      split <;> rfl

theorem words_dropWhile (s : List α) : words space (s.dropWhile space) = words space s := by
  induction s with
  | nil => rfl
  | cons c s ih =>
      rw [List.dropWhile_cons]
      split
      next hc => rw [ih, words_cons hc]
      next => rfl

/-- The end of a run, white space or the end of the input. -/
def Ends (space : α → Bool) (rest : List α) : Prop := ∀ x ∈ rest.head?, space x = true

theorem takeWhile_run {w rest : List α} (hw : ∀ x ∈ w, space x = false) (hrest : Ends space rest) :
    (w ++ rest).takeWhile (!space ·) = w := by
  rw [List.takeWhile_append_of_pos (fun x hx => by rw [hw x hx, Bool.not_false])]
  cases rest with
  | nil => rw [List.takeWhile_nil, List.append_nil]
  | cons x rest =>
      rw [List.takeWhile_cons_of_neg (by rw [hrest x rfl]; decide), List.append_nil]

theorem dropWhile_run {w rest : List α} (hw : ∀ x ∈ w, space x = false) (hrest : Ends space rest) :
    (w ++ rest).dropWhile (!space ·) = rest := by
  rw [List.dropWhile_append_of_pos (fun x hx => by rw [hw x hx, Bool.not_false])]
  cases rest with
  | nil => rfl
  | cons x rest => rw [List.dropWhile_cons_of_neg (by rw [hrest x rfl]; decide)]

theorem first_word (s : List α) :
    (s.dropWhile space = [] ∧ words space s = []) ∨
    ∃ c w rest, s.dropWhile space = (c :: w) ++ rest ∧ (∀ x ∈ c :: w, space x = false) ∧
      Ends space rest ∧ words space s = (c :: w) :: words space rest ∧
      w.length + rest.length < s.length := by
  cases hdrop : s.dropWhile space with
  | nil => exact .inl ⟨rfl, by rw [← words_dropWhile, hdrop, words_nil]⟩
  | cons c r =>
      have hc : space c = false := by
        have hhead := List.head?_dropWhile_not space s
        rw [hdrop] at hhead
        simpa using hhead
      have hw : ∀ x ∈ c :: r.takeWhile (!space ·), space x = false := by
        intro x hx
        rcases List.mem_cons.mp hx with rfl | hx
        · exact hc
        · simpa using List.mem_takeWhile_imp hx
      have hrest : Ends space (r.dropWhile (!space ·)) := by
        intro x hx
        have hhead := List.head?_dropWhile_not (!space ·) r
        rw [Option.mem_def.mp hx] at hhead
        simpa using hhead
      have hsplit : c :: r = (c :: r.takeWhile (!space ·)) ++ r.dropWhile (!space ·) := by
        rw [List.cons_append, List.takeWhile_append_dropWhile]
      refine .inr ⟨c, _, _, hsplit, hw, hrest, ?_, ?_⟩
      · rw [← words_dropWhile, hdrop, hsplit, words_append hw hrest]
        rfl
      · have hlength := (@List.dropWhile_suffix _ s space).length_le
        rw [hdrop, hsplit, List.length_append, List.length_cons] at hlength
        omega

theorem skipField_cases (s : List α) :
    (words space s = [] ∧ skipField space s = none) ∨
    ∃ w ws rest, words space s = w :: ws ∧ skipField space s = some rest ∧
      words space rest = ws ∧ rest.length < s.length := by
  obtain ⟨hdrop, hwords⟩ | ⟨c, w, rest, hdrop, hw, hrest, hwords, hlength⟩ := first_word s
  · exact .inl ⟨hwords, by rw [skipField, hdrop]⟩
  · refine .inr ⟨_, _, rest, hwords, ?_, rfl, by omega⟩
    rw [skipField, hdrop, List.cons_append]
    exact congrArg some (dropWhile_run hw hrest)

theorem readChar_cases (s : List α) :
    (words space s = [] ∧ readChar space s = none) ∨
    ∃ c w ws rest, words space s = (c :: w) :: ws ∧ readChar space s = some (c, rest) ∧
      words space rest = rejoin w ws ∧ rest.length < s.length := by
  obtain ⟨hdrop, hwords⟩ | ⟨c, w, rest, hdrop, hw, hrest, hwords, hlength⟩ := first_word s
  · exact .inl ⟨hwords, by rw [readChar, hdrop]⟩
  · refine .inr ⟨c, w, _, w ++ rest, hwords, ?_, ?_, ?_⟩
    · rw [readChar, hdrop, List.cons_append]
    · exact words_append (fun x hx => hw x (List.mem_cons_of_mem c hx)) hrest
    · rw [List.length_append]
      exact hlength

theorem readField_cases (width : ℕ) (s : List α) :
    (words space s = [] ∧ readField space width s = none) ∨
    ∃ w ws rest, words space s = w :: ws ∧ readField space width s = some (w.take width, rest) ∧
      words space rest = rejoin (w.drop width) ws ∧ rest.length ≤ s.length := by
  obtain ⟨hdrop, hwords⟩ | ⟨c, w, rest, hdrop, hw, hrest, hwords, hlength⟩ := first_word s
  · exact .inl ⟨hwords, by rw [readField, hdrop]⟩
  · have hleft : ((c :: w) ++ rest).drop ((c :: w).take width).length =
        (c :: w).drop width ++ rest := by
      rw [List.drop_append_of_le_length (List.length_take_le' ..), List.length_take]
      congr 1
      rcases le_total width (c :: w).length with hle | hle
      · rw [min_eq_left hle]
      · rw [min_eq_right hle, List.drop_length, List.drop_of_length_le hle]
    refine .inr ⟨c :: w, _, (c :: w).drop width ++ rest, hwords, ?_, ?_, ?_⟩
    · rw [readField, hdrop]
      simp only [List.cons_append]
      rw [← List.cons_append, takeWhile_run hw hrest, hleft]
    · exact words_append (fun x hx => hw x (List.mem_of_mem_drop hx)) hrest
    · simp only [List.length_append, List.length_drop, List.length_cons]
      omega

/-- Which directive meets the next word. -/
inductive Phase where
  | skip | char | field
  deriving DecidableEq, Repr

/-- A word that is not used up is met again by the directive after. -/
def Phase.next (width : ℕ) : Phase → List α → Phase
  | .skip, _ => .char
  | .char, w =>
      if w.tail.isEmpty then .field else if w.tail.length ≤ width then .skip else .char
  | .field, w => if w.length ≤ width then .skip else .char

/-- The field read from a word, if one is. -/
def Phase.emits (width : ℕ) : Phase → List α → List (List α)
  | .skip, _ => []
  | .char, w => if w.tail.isEmpty then [] else [w.tail.take width]
  | .field, w => [w.take width]

/-- The fields that repeated scanning reads from words. -/
def reads (width : ℕ) : Phase → List (List α) → List (List α)
  | _, [] => []
  | p, w :: ws => p.emits width w ++ reads width (p.next width w) ws

def phaseAfter (width : ℕ) (p : Phase) (ws : List (List α)) : Phase := ws.foldl (Phase.next width) p

theorem Phase.next_of_length {width : ℕ} {w w' : List α} (h : w.length = w'.length) (p : Phase) :
    p.next width w = p.next width w' := by
  have htail : w.tail.length = w'.tail.length := by rw [List.length_tail, List.length_tail, h]
  have hempty : w.tail.isEmpty = w'.tail.isEmpty := by
    rw [Bool.eq_iff_iff, List.isEmpty_iff_length_eq_zero, List.isEmpty_iff_length_eq_zero, htail]
  cases p with
  | skip => rfl
  | char => simp only [Phase.next, htail, hempty]
  | field => simp only [Phase.next, h]

theorem phaseAfter_of_lengths {width : ℕ} {ws ws' : List (List α)}
    (h : ws.map List.length = ws'.map List.length) (p : Phase) :
    phaseAfter width p ws = phaseAfter width p ws' := by
  induction ws generalizing ws' p with
  | nil => rw [List.map_eq_nil_iff.mp h.symm]
  | cons w ws ih =>
      cases ws' with
      | nil => cases h
      | cons w' ws' =>
          obtain ⟨hlength, hrest⟩ := List.cons.inj h
          rw [phaseAfter, phaseAfter, List.foldl_cons, List.foldl_cons,
            Phase.next_of_length hlength]
          exact ih hrest _

theorem reads_append (width : ℕ) (p : Phase) (ws ws' : List (List α)) :
    reads width p (ws ++ ws') = reads width p ws ++ reads width (phaseAfter width p ws) ws' := by
  induction ws generalizing p with
  | nil => rfl
  | cons w ws ih => rw [List.cons_append, reads, ih, reads, List.append_assoc]; rfl

theorem reads_char (width : ℕ) (c : α) (w : List α) (ws : List (List α)) :
    reads width .char ((c :: w) :: ws) = reads width .field (rejoin w ws) := by
  cases w with
  | nil => rfl
  | cons d w => rfl

theorem reads_field (width : ℕ) (w : List α) (ws : List (List α)) :
    reads width .field (w :: ws) = w.take width :: reads width .skip (rejoin (w.drop width) ws) := by
  rw [reads, Phase.emits, Phase.next, List.singleton_append]
  congr 1
  split
  next hle => rw [List.drop_of_length_le hle]; rfl
  next hlt =>
      have hne : (w.drop width).isEmpty = false := by
        rw [List.isEmpty_eq_false_iff, ← List.length_pos_iff, List.length_drop]
        omega
      rw [rejoin, hne]
      rfl

/-- One entry is what the words give first, and scanning goes on with the rest. -/
theorem scanEntry_cases (width : ℕ) (s : List α) :
    (scanEntry space width s = none ∧ reads width .skip (words space s) = []) ∨
    ∃ c field rest, scanEntry space width s = some (c, field, rest) ∧ rest.length < s.length ∧
      reads width .skip (words space s) = field :: reads width .skip (words space rest) := by
  obtain ⟨hws, hskip⟩ | ⟨w, ws, s₁, hws, hskip, hws₁, hlt⟩ := @skipField_cases _ space s
  · exact .inl ⟨by simp [scanEntry, hskip], by rw [hws, reads]⟩
  obtain ⟨hnil, hchar⟩ | ⟨c, w₁, ws₁, s₂, hcons, hchar, hws₂, hlt₁⟩ := @readChar_cases _ space s₁
  · refine .inl ⟨by simp [scanEntry, hskip, hchar], ?_⟩
    rw [hws, ← hws₁, hnil]
    rfl
  have hreads : reads width .skip (words space s) = reads width .field (words space s₂) := by
    rw [hws, ← hws₁, hcons, hws₂, ← reads_char width c]
    rfl
  obtain ⟨hnil, hfield⟩ | ⟨w₂, ws₂, rest, hcons₂, hfield, hrest, hle⟩ :=
    @readField_cases _ space width s₂
  · exact .inl ⟨by simp [scanEntry, hskip, hchar, hfield], by rw [hreads, hnil, reads]⟩
  · refine .inr ⟨c, w₂.take width, rest, by simp [scanEntry, hskip, hchar, hfield], by omega, ?_⟩
    rw [hreads, hcons₂, reads_field, hrest]

end MonitoringTools.Scanning
