import MonitoringTools.CNumbers
import MonitoringTools.Scanning

/-!
# Looking a function up in kallsyms

`kernel_function_exists` reads an address, a type and a symbol at a time and
takes no notice of lines. A line of a module has a fourth field, the module in
brackets: the scan takes it for the next address and is out of step from there
until the fields happen to fall back into place.
-/
namespace MonitoringTools.Kallsyms
open CStrings CNumbers Scanning

/-- The loop over the entries of the file. -/
def findSymbol (name : CString) : ℕ → CString → Bool
  | 0, _ => false
  | fuel + 1, s =>
      match scanEntry isspace 255 s with
      | none => false
      | some (_, symbol, rest) => if symbol = name then true else findSymbol name fuel rest

/-- The text of the file, unless it cannot be opened. Every entry takes some of it. -/
def kernelFunctionExists (kallsyms : Option CString) (name : CString) : Bool :=
  match kallsyms with
  | none => false
  | some text => findSymbol name text.length text

theorem findSymbol_iff {name : CString} {fuel : ℕ} {s : CString} (h : s.length ≤ fuel) :
    findSymbol name fuel s = true ↔ name ∈ reads 255 .skip (words isspace s) := by
  induction fuel generalizing s with
  | zero =>
      obtain rfl : s = [] := List.length_eq_zero_iff.mp (Nat.le_zero.mp h)
      simp [findSymbol, reads]
  | succ fuel ih =>
      rw [findSymbol]
      obtain ⟨hentry, hreads⟩ | ⟨c, symbol, rest, hentry, hlt, hreads⟩ :=
        @scanEntry_cases _ isspace 255 s
      · simp [hentry, hreads]
      · have hrest := ih (s := rest) (by omega)
        rw [hentry, hreads, List.mem_cons, eq_comm (a := name), ← hrest]
        by_cases heq : symbol = name <;> simp [heq]

theorem kernelFunctionExists_iff (text name : CString) :
    kernelFunctionExists (some text) name = true ↔
      name ∈ reads 255 .skip (words isspace text) := findSymbol_iff le_rfl

/-- Characters other than white space, at least one. -/
def Field (s : CString) : Prop := s ≠ [] ∧ ∀ c ∈ s, isspace c = false

/-- A line of the file; the module has its name without the brackets. -/
structure Line where
  address : CString
  type : Char
  name : CString
  moduleName : Option CString
  address_field : Field address
  type_graph : isspace type = false
  name_field : Field name
  name_fits : name.length ≤ 255
  module_graph : ∀ m ∈ moduleName, ∀ c ∈ m, isspace c = false

namespace Line

def bracketed (m : CString) : CString := '[' :: (m ++ [']'])

def render (l : Line) : CString :=
  l.address ++ ' ' :: l.type :: ' ' :: (l.name ++
    match l.moduleName with
    | none => ['\n']
    | some m => '\t' :: (bracketed m ++ ['\n']))

/-- The fields of a line. -/
def fields (l : Line) : List CString :=
  [l.address, [l.type], l.name] ++ (l.moduleName.map bracketed).toList

theorem field_bracketed {m : CString} (h : ∀ c ∈ m, isspace c = false) : Field (bracketed m) := by
  refine ⟨List.cons_ne_nil _ _, fun c hc => ?_⟩
  rcases List.mem_cons.mp hc with rfl | hc
  · decide
  rcases List.mem_append.mp hc with hc | hc
  · exact h c hc
  · rw [List.mem_singleton.mp hc]
    decide

end Line

def text (ls : List Line) : CString := ls.flatMap Line.render

theorem words_field {w : CString} (hw : Field w) {c : Char} (hc : isspace c = true) (s : CString) :
    words isspace (w ++ c :: s) = w :: words isspace s := by
  rw [words_append_cons w s hc, words_of_graph hw.2, rejoin, List.isEmpty_eq_false_iff.mpr hw.1]
  rfl

theorem words_render (l : Line) (s : CString) :
    words isspace (l.render ++ s) = l.fields ++ words isspace s := by
  have hfield : Field [l.type] := by
    refine ⟨List.cons_ne_nil _ _, fun c hc => ?_⟩
    rw [List.mem_singleton.mp hc]
    exact l.type_graph
  have htype : ∀ s, words isspace (l.type :: ' ' :: s) = [l.type] :: words isspace s :=
    @words_field [l.type] hfield ' ' rfl
  have hmodule := l.module_graph
  rw [Line.render, Line.fields]
  cases h : l.moduleName with
  | none =>
      simp only [List.append_assoc, List.cons_append]
      rw [words_field l.address_field (by decide), htype, words_field l.name_field (by decide)]
      rfl
  | some m =>
      have hbracketed := Line.field_bracketed (hmodule m h)
      simp only [List.append_assoc, List.cons_append]
      rw [words_field l.address_field (by decide), htype, words_field l.name_field (by decide),
        words_field hbracketed (by decide)]
      rfl

theorem words_text (ls : List Line) : words isspace (text ls) = ls.flatMap Line.fields := by
  induction ls with
  | nil => exact words_nil
  | cons l ls ih => rw [text, List.flatMap_cons, words_render, ← text, ih, List.flatMap_cons]

/-- The directive that meets the address of the line after. -/
def Line.next (p : Phase) (l : Line) : Phase := phaseAfter 255 p l.fields

/-- The names of the lines that the scan is in step with: their address is
what it skips. -/
def inStep : Phase → List Line → List CString
  | _, [] => []
  | p, l :: ls => (if p = .skip then [l.name] else []) ++ inStep (l.next p) ls

/-- What the scan reads from the other lines. -/
def strays : Phase → List Line → List CString
  | _, [] => []
  | p, l :: ls => (if p = .skip then [] else reads 255 p l.fields) ++ strays (l.next p) ls

/-- The lengths of the fields alone decide which lines are in step. -/
theorem Line.next_of_lengths {l l' : Line}
    (h : l.fields.map List.length = l'.fields.map List.length) (p : Phase) :
    l.next p = l'.next p := phaseAfter_of_lengths h p

theorem reads_fields (l : Line) : reads 255 .skip l.fields = [l.name] := by
  have hname : ∀ ws : List CString, reads 255 .skip (l.address :: [l.type] :: l.name :: ws) =
      l.name :: reads 255 .skip ws := by
    intro ws
    simp only [reads, Phase.emits, Phase.next, List.tail_cons, List.isEmpty_nil, if_true,
      List.nil_append, List.take_of_length_le l.name_fits, if_pos l.name_fits, List.singleton_append]
  rw [Line.fields]
  cases l.moduleName with
  | none => exact hname []
  | some m => exact hname [Line.bracketed m]

theorem next_skip (l : Line) :
    l.next .skip = if l.moduleName.isSome then .char else .skip := by
  rw [Line.next, Line.fields]
  cases l.moduleName <;>
    simp [phaseAfter, Phase.next, if_pos l.name_fits]

theorem mem_reads_fields {p : Phase} {ls : List Line} {name : CString} :
    name ∈ reads 255 p (ls.flatMap Line.fields) ↔ name ∈ inStep p ls ∨ name ∈ strays p ls := by
  induction ls generalizing p with
  | nil => simp [reads, inStep, strays]
  | cons l ls ih =>
      rw [List.flatMap_cons, reads_append, List.mem_append, ← Line.next, ih, inStep, strays,
        List.mem_append, List.mem_append]
      by_cases hp : p = .skip
      · subst hp
        rw [if_pos rfl, if_pos rfl, reads_fields]
        simp only [List.not_mem_nil, false_or, or_assoc]
      · rw [if_neg hp, if_neg hp]
        simp only [List.not_mem_nil, false_or, or_left_comm]

theorem exists_of_mem_inStep {p : Phase} {ls : List Line} {name : CString}
    (h : name ∈ inStep p ls) : ∃ l ∈ ls, l.name = name := by
  induction ls generalizing p with
  | nil => cases h
  | cons l ls ih =>
      rcases List.mem_append.mp h with h | h
      · exact ⟨l, List.mem_cons_self, (List.mem_singleton.mp (List.mem_ite_nil_right.mp h).2).symm⟩
      · obtain ⟨l', hl', hname⟩ := ih h
        exact ⟨l', List.mem_cons_of_mem l hl', hname⟩

/-- The function answers whether some line has the name. -/
def FindsNames (ls : List Line) (name : CString) : Prop :=
  kernelFunctionExists (some (text ls)) name = true ↔ ∃ l ∈ ls, l.name = name

/-- The lines with the name are all out of step, and no stray equals it. -/
def Missed (ls : List Line) (name : CString) : Prop :=
  (∃ l ∈ ls, l.name = name) ∧ name ∉ inStep .skip ls ∧ name ∉ strays .skip ls

/-- No line has the name, but a stray equals it. -/
def Spurious (ls : List Line) (name : CString) : Prop :=
  (¬ ∃ l ∈ ls, l.name = name) ∧ name ∈ strays .skip ls

theorem found_iff (ls : List Line) (name : CString) :
    kernelFunctionExists (some (text ls)) name = true ↔
      name ∈ inStep .skip ls ∨ name ∈ strays .skip ls := by
  rw [kernelFunctionExists_iff, words_text, mem_reads_fields]

/-- The answer is right unless the name is missed or a stray is taken for it. -/
theorem findsNames_iff (ls : List Line) (name : CString) :
    FindsNames ls name ↔ ¬ Missed ls name ∧ ¬ Spurious ls name := by
  rw [FindsNames, found_iff, Missed, Spurious]
  have hnames : name ∈ inStep .skip ls → ∃ l ∈ ls, l.name = name := exists_of_mem_inStep
  by_cases hnamed : ∃ l ∈ ls, l.name = name
  · simp only [hnamed, iff_true, true_and, not_true, false_and, not_false_eq_true, and_true,
      not_and_or, not_not]
  · have hout : name ∉ inStep .skip ls := fun h => hnamed (hnames h)
    simp only [hnamed, hout, iff_false, false_or, false_and, not_false_eq_true, true_and]

theorem field_of_all {s : CString} (hne : s.isEmpty = false)
    (h : s.all (!isspace ·) = true) : Field s := by
  refine ⟨List.isEmpty_eq_false_iff.mp hne, fun c hc => ?_⟩
  simpa using List.all_eq_true.mp h c hc

/-- A line of the module cifs. -/
def cifsLine (name : CString) (hname : Field name) (hfits : name.length ≤ 255) : Line where
  address := cstr "ffffffffc0a01000"
  type := 't'
  name := name
  moduleName := some (cstr "cifs")
  address_field := field_of_all (by decide) (by decide)
  type_graph := by decide
  name_field := hname
  name_fits := hfits
  module_graph m hm := by
    obtain rfl := Option.some.inj hm
    exact (field_of_all (by decide) (by decide)).2

def cifsLines : List Line :=
  [cifsLine (cstr "cifs_open") (field_of_all (by decide) (by decide)) (by decide),
    cifsLine (cstr "cifs_close") (field_of_all (by decide) (by decide)) (by decide)]

/-- The second symbol of a module is not found. -/
theorem findsNames_fails_cifs : ¬ ∀ (ls : List Line) (name : CString), FindsNames ls name := by
  intro h
  have hclose : kernelFunctionExists (some (text cifsLines)) (cstr "cifs_close") = false := by
    decide +kernel
  have hfound := (h cifsLines (cstr "cifs_close")).mpr
    ⟨_, List.mem_cons_of_mem _ List.mem_cons_self, rfl⟩
  rw [hclose] at hfound
  cases hfound

/-- Without modules the scan is in step with every line. -/
theorem findsNames_of_no_modules {ls : List Line} (h : ∀ l ∈ ls, l.moduleName = none)
    (name : CString) : FindsNames ls name := by
  have hlines : inStep .skip ls = ls.map Line.name ∧ strays .skip ls = [] := by
    induction ls with
    | nil => exact ⟨rfl, rfl⟩
    | cons l ls ih =>
        obtain ⟨hnames, hstrays⟩ := ih fun l' hl' => h l' (List.mem_cons_of_mem l hl')
        have hnext : l.next .skip = .skip := by
          rw [next_skip, h l List.mem_cons_self]
          rfl
        simp only [inStep, strays, if_true, hnext, hnames, hstrays, List.map_cons,
          List.singleton_append, List.append_nil, and_self]
  rw [FindsNames, found_iff, hlines.1, hlines.2, List.mem_map, or_iff_left List.not_mem_nil]

/-- A line as the kernel prints them: the address has some digits, and so has
the name some characters. -/
def Line.Ordinary (l : Line) : Prop :=
  2 ≤ l.address.length ∧ l.address.length ≤ 256 ∧ 2 ≤ l.name.length

/-- Each line, with whether the line before it has a module. -/
def afterModule : Bool → List Line → List (Bool × Line)
  | _, [] => []
  | after, l :: ls => (after, l) :: afterModule l.moduleName.isSome ls

/-- Out of step, an ordinary line gives its address and its name without their
first characters; the scan falls into step at its end unless it has a module. -/
theorem ordinary_char {l : Line} (h : l.Ordinary) :
    reads 255 .char l.fields = [l.address.tail, l.name.tail] ∧
      l.next .char = if l.moduleName.isSome then .char else .skip := by
  obtain ⟨hshort, hlong, hname⟩ := h
  have hfits := l.name_fits
  have haddress : l.address.tail.isEmpty = false ∧ l.address.tail.length ≤ 255 := by
    rw [List.isEmpty_eq_false_iff, ← List.length_pos_iff, List.length_tail]
    omega
  have hsymbol : l.name.tail.isEmpty = false ∧ l.name.tail.length ≤ 255 := by
    rw [List.isEmpty_eq_false_iff, ← List.length_pos_iff, List.length_tail]
    omega
  have hreads : ∀ ws : List CString, reads 255 .char (l.address :: [l.type] :: l.name :: ws) =
      l.address.tail :: l.name.tail :: reads 255 .skip ws := by
    intro ws
    simp only [reads, Phase.emits, Phase.next, haddress, hsymbol, Bool.false_eq_true, if_false,
      if_true, List.take_of_length_le, List.nil_append, List.singleton_append]
  have hnext : ∀ ws : List CString, phaseAfter 255 .char (l.address :: [l.type] :: l.name :: ws) =
      phaseAfter 255 .skip ws := by
    intro ws
    simp only [phaseAfter, List.foldl_cons, Phase.next, haddress, hsymbol, Bool.false_eq_true,
      if_false, if_true]
  rw [Line.next, Line.fields]
  cases l.moduleName with
  | none => exact ⟨hreads [], hnext []⟩
  | some m => exact ⟨hreads [Line.bracketed m], hnext [Line.bracketed m]⟩

/-- The directive that meets an ordinary line. -/
def start (after : Bool) : Phase := if after then .char else .skip

/-- What a line gives, after a line with a module or another. -/
def Gives (name : CString) : Bool × Line → Prop
  | (true, l) => l.address.tail = name ∨ l.name.tail = name
  | (false, l) => l.name = name

theorem mem_reads_ordinary {after : Bool} {ls : List Line} (h : ∀ l ∈ ls, l.Ordinary)
    (name : CString) : name ∈ reads 255 (start after) (ls.flatMap Line.fields) ↔
      ∃ b ∈ afterModule after ls, Gives name b := by
  induction ls generalizing after with
  | nil => simp [reads, afterModule]
  | cons l ls ih =>
      have hstep : (name ∈ reads 255 (start after) l.fields ↔ Gives name (after, l)) ∧
          phaseAfter 255 (start after) l.fields = start l.moduleName.isSome := by
        cases after with
        | false =>
            refine ⟨?_, next_skip l⟩
            rw [start, if_neg Bool.false_ne_true, reads_fields, List.mem_singleton]
            exact eq_comm
        | true =>
            obtain ⟨hreads, hnext⟩ := ordinary_char (h l List.mem_cons_self)
            refine ⟨?_, hnext⟩
            rw [start, if_pos rfl, hreads, List.mem_pair]
            exact or_congr eq_comm eq_comm
      rw [List.flatMap_cons, reads_append, List.mem_append, hstep.1, hstep.2,
        ih fun l' hl' => h l' (List.mem_cons_of_mem l hl'), afterModule, List.exists_mem_cons_iff]

/-- Among ordinary lines, a name is found on a line whose predecessor has no
module, or as what a line after a module gives. -/
theorem found_iff_ordinary {ls : List Line} (h : ∀ l ∈ ls, l.Ordinary) (name : CString) :
    kernelFunctionExists (some (text ls)) name = true ↔
      ∃ b ∈ afterModule false ls, Gives name b := by
  rw [kernelFunctionExists_iff, words_text]
  exact @mem_reads_ordinary false ls h name

end MonitoringTools.Kallsyms
