import MonitorSystem.Library.Segments
import Mathlib.Data.List.DropRight
import Mathlib.Data.List.Infix

/-!
# Text functions

The functions of Go's `strings` and `unicode` packages that the services use on
identifiers and messages. A text is the list of its code points.

`unicode.ToLower` is a table; it is a parameter wherever a text is folded to lower case.
`strings.EqualFold` is used against texts of ASCII letters only, for which the table has
two letters more than the two cases of a letter: the Kelvin sign and the long s.
-/

namespace MonitorSystem

/-- `unicode.IsSpace`. -/
def isSpace (c : Char) : Bool :=
  c ∈ ['\t', '\n', '\x0b', '\x0c', '\r', ' ', '\u0085', '\u00a0', '\u1680', '\u2028', '\u2029',
    '\u202f', '\u205f', '\u3000'] || ('\u2000' ≤ c && c ≤ '\u200a')

/-- `strings.TrimSpace`. -/
def trimSpace (s : String) : String :=
  .ofList (((s.toList.dropWhile isSpace).reverse.dropWhile isSpace).reverse)

/-- `strings.Fields`: the words between spaces. -/
def fields (s : String) : List String :=
  ((s.toList.splitOnP isSpace).filter fun w => !w.isEmpty).map String.ofList

/-- `strings.Contains`. -/
def containsText (s t : String) : Bool := decide (t.toList <:+: s.toList)

/-- `strings.TrimPrefix`. -/
def trimPrefix (s pre : String) : String :=
  if pre.toList <+: s.toList then .ofList (s.toList.drop pre.toList.length) else s

/-- `strings.ToLower`, with the table of `unicode.ToLower`. -/
def lowerText (toLower : Char → Char) (s : String) : String := .ofList (s.toList.map toLower)

/-- The letter that stands for all those equal to an ASCII letter under simple folding. -/
def foldChar (c : Char) : Char :=
  if c = '\u212a' then 'k' else if c = '\u017f' then 's' else c.toLower

/-- `strings.EqualFold`, against a text of ASCII characters. -/
def equalFold (s t : String) : Bool := s.toList.map foldChar = t.toList.map foldChar

/-! ### Trimmed texts -/

open Segments in
/-- A text without a space at either end. -/
def TrimmedText (s : String) : Prop := Trimmed isSpace s.toList

instance decidableTrimmedText (s : String) : Decidable (TrimmedText s) :=
  inferInstanceAs (Decidable (Segments.Trimmed isSpace s.toList))

theorem dropWhile_of_head {p : Char → Bool} {l : List Char} (h : ∀ c ∈ l.head?, p c = false) :
    l.dropWhile p = l := by
  cases l with
  | nil => rfl
  | cons c l => simp [h c (by simp)]

theorem head_dropWhile (p : Char → Bool) (l : List Char) :
    ∀ c ∈ (l.dropWhile p).head?, p c = false := by
  induction l with
  | nil => simp
  | cons c l ih =>
    rw [List.dropWhile_cons]
    split
    · exact ih
    · next hc => simpa using hc

theorem trimmedText_trimSpace (s : String) : TrimmedText (trimSpace s) := by
  refine ⟨fun c hc => ?_, fun c hc => ?_⟩
  · rw [trimSpace, String.toList_ofList, List.head?_reverse] at hc
    -- dropping letters at the end keeps the first one
    have hsuffix := List.dropWhile_suffix isSpace (l := (s.toList.dropWhile isSpace).reverse)
    refine head_dropWhile isSpace s.toList c ?_
    rw [← List.getLast?_reverse]
    obtain ⟨front, hfront⟩ := hsuffix
    rw [← hfront, List.getLast?_append, hc]
    rfl
  · rw [trimSpace, String.toList_ofList, List.getLast?_reverse] at hc
    exact head_dropWhile isSpace _ c hc

theorem trimSpace_of_trimmedText {s : String} (h : TrimmedText s) : trimSpace s = s := by
  have hfront : s.toList.dropWhile isSpace = s.toList := dropWhile_of_head h.head
  have hback : s.toList.reverse.dropWhile isSpace = s.toList.reverse :=
    dropWhile_of_head (by simpa using h.last)
  rw [trimSpace, hfront, hback, List.reverse_reverse, String.ofList_toList]

@[simp] theorem trimSpace_trimSpace (s : String) : trimSpace (trimSpace s) = trimSpace s :=
  trimSpace_of_trimmedText (trimmedText_trimSpace s)

end MonitorSystem
