import Mathlib.Data.List.Infix

/-!
# Strings of the C library

A string is the list of its characters before the terminator. The functions
follow the C standard library on such strings; those that report a position
return what stands from there on.
-/
namespace MonitoringTools.CStrings

abbrev CString := List Char

/-- A string literal, one character for each of its bytes. -/
def cstr (s : String) : CString := s.toUTF8.data.toList.map fun b => Char.ofNat b.toNat

/-- `strstr(s, needle) != NULL`. -/
def strstr (s needle : CString) : Bool := s.tails.any needle.isPrefixOf

/-- `!strncmp(a, b, n)`. -/
def strncmpEq (a b : CString) (n : ℕ) : Bool := a.take n == b.take n

/-- What follows the first occurrence of a character. -/
def afterChar (c : Char) : CString → Option CString
  | [] => none
  | d :: s => if d = c then some s else afterChar c s

theorem strstr_iff (s needle : CString) : strstr s needle = true ↔ needle <:+: s := by
  rw [strstr, List.any_eq_true, List.infix_iff_prefix_suffix]
  simp only [List.mem_tails, List.isPrefixOf_iff_prefix, and_comm]

/-- The tokens that repeated calls of `strtok` find, from inside a token on. -/
def strtokFrom (delims current : CString) : CString → List CString
  | [] => if current = [] then [] else [current]
  | c :: s =>
      if c ∈ delims then
        if current = [] then strtokFrom delims [] s else current :: strtokFrom delims [] s
      else strtokFrom delims (current ++ [c]) s

def strtok (s delims : CString) : List CString := strtokFrom delims [] s

theorem ne_nil_of_mem_strtokFrom {delims current s token : CString}
    (h : token ∈ strtokFrom delims current s) : token ≠ [] := by
  induction s generalizing current with
  | nil =>
      simp only [strtokFrom] at h
      split at h
      next => cases h
      next hne => exact List.mem_singleton.mp h ▸ hne
  | cons c s ih =>
      simp only [strtokFrom] at h
      split at h
      · split at h
        next => exact ih h
        next hne =>
            rcases List.mem_cons.mp h with rfl | hrest
            · exact hne
            · exact ih hrest
      · exact ih h

theorem ne_nil_of_mem_strtok {delims s token : CString} (h : token ∈ strtok s delims) :
    token ≠ [] := ne_nil_of_mem_strtokFrom h

end MonitoringTools.CStrings
