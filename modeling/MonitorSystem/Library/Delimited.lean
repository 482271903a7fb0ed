import Mathlib.Data.List.Basic

/-!
# Words joined by a delimiter

A composite key is often written as its parts with a delimiter between them. This file
says when the parts can be read back from such a word, over any type of letters.

`Delimited.join d a b c` is the word of three parts. Two of them are required not to be
empty. Nothing forbids a part to hold the delimiter, so two triples can have the same
word; `Delimited.Unambiguous d a b c` is the condition on one triple under which no other
triple has its word (`Delimited.join_unique_iff`). It is weaker than `d` being absent: a
delimiter at the very beginning of the first part, or a second part that is one
delimiter, leaves no other place to cut.
-/

namespace Delimited

variable {α : Type*} {d : α} {a b c a' b' c' : List α}

/-- **Three parts with a delimiter between them.** -/
def join (d : α) (a b c : List α) : List α := a ++ d :: (b ++ d :: c)

/-- **A cut at the last delimiter is the last cut**: every other cut is inside the part
before it. -/
theorem cut_of_notMem {p q : List α} (hc : d ∉ c) (h : b ++ d :: c = p ++ d :: q) :
    (p = b ∧ q = c) ∨ ∃ m, b = p ++ d :: m ∧ q = m ++ d :: c := by
  rcases List.append_eq_append_iff.mp h with ⟨w, rfl, hw⟩ | ⟨w, rfl, hw⟩
  · cases w with
    | nil => exact .inl ⟨by simp, by simpa using hw.symm⟩
    | cons x w =>
      -- the cut would be inside `c`
      obtain ⟨rfl, rfl⟩ : d = x ∧ c = w ++ d :: q := by simpa using hw
      exact absurd (by simp) hc
  · cases w with
    | nil => exact .inl ⟨by simp, by simpa using hw⟩
    | cons x w =>
      obtain ⟨rfl, rfl⟩ : d = x ∧ q = w ++ d :: c := by simpa using hw
      exact .inr ⟨w, rfl, rfl⟩

/-- **The word of this triple has no other reading.** -/
def Unambiguous (d : α) (a b c : List α) : Prop :=
  d ∉ a.tail ∧ (d ∉ b ∨ b = [d]) ∧ d ∉ c

instance [DecidableEq α] : Decidable (Unambiguous d a b c) :=
  inferInstanceAs (Decidable (d ∉ a.tail ∧ (d ∉ b ∨ b = [d]) ∧ d ∉ c))

theorem Unambiguous.eq_of_join_eq (h : Unambiguous d a b c) (ha' : a' ≠ []) (hb' : b' ≠ [])
    (heq : join d a' b' c' = join d a b c) : a' = a ∧ b' = b ∧ c' = c := by
  obtain ⟨ha, hb, hc⟩ := h
  rcases List.append_eq_append_iff.mp heq with ⟨w, rfl, hw⟩ | ⟨w, rfl, hw⟩
  · cases w with
    | nil =>
      obtain ⟨rfl, rfl⟩ | ⟨m, rfl, rfl⟩ :=
        cut_of_notMem hc (show b ++ d :: c = b' ++ d :: c' by simpa using hw.symm)
      · exact ⟨by simp, rfl, rfl⟩
      · exact absurd hb (by cases b' <;> simp_all)
    | cons x w =>
      -- a longer first part with a delimiter after `a'`, which is not empty
      obtain ⟨rfl, -⟩ : d = x ∧ b' ++ d :: c' = w ++ d :: (b ++ d :: c) := by simpa using hw
      exact absurd ha (by cases a' <;> simp_all)
  · cases w with
    | nil =>
      obtain ⟨rfl, rfl⟩ | ⟨m, rfl, rfl⟩ :=
        cut_of_notMem hc (show b ++ d :: c = b' ++ d :: c' by simpa using hw)
      · exact ⟨by simp, rfl, rfl⟩
      · exact absurd hb (by cases b' <;> simp_all)
    | cons x w =>
      -- the first part ends at a delimiter of `b`, so `b` is that delimiter alone
      obtain ⟨rfl, hcut⟩ : d = x ∧ b ++ d :: c = w ++ d :: (b' ++ d :: c') := by simpa using hw
      obtain ⟨-, rfl⟩ | ⟨m, rfl, hm⟩ := cut_of_notMem hc hcut
      · exact absurd (by simp) hc
      · have hb0 : w = [] ∧ m = [] := by
          rcases hb with hb | hb
          · exact absurd (by simp) hb
          · cases w <;> simp_all
        obtain ⟨rfl, rfl⟩ := hb0
        cases b' with
        | nil => exact absurd rfl hb'
        | cons y b' =>
          obtain ⟨-, rfl⟩ : y = d ∧ b' ++ d :: c' = c := by simpa using hm
          exact absurd (by simp) hc

/-- **Every other triple can be read differently**, with non-empty first and second
parts. -/
theorem exists_join_eq (ha : a ≠ []) (hb : b ≠ []) (h : ¬ Unambiguous d a b c) :
    ∃ a' b' c', a' ≠ [] ∧ b' ≠ [] ∧ join d a' b' c' = join d a b c ∧
      ¬ (a' = a ∧ b' = b ∧ c' = c) := by
  by_cases ha' : d ∈ a.tail
  · obtain ⟨p, q, hpq⟩ := List.append_of_mem ha'
    obtain ⟨x, a, rfl⟩ := List.exists_cons_of_ne_nil ha
    obtain rfl : a = p ++ d :: q := hpq
    exact ⟨x :: p, q ++ d :: b, c, by simp, by simp, by simp [join], by simp⟩
  by_cases hc : d ∈ c
  · obtain ⟨p, q, rfl⟩ := List.append_of_mem hc
    exact ⟨a, b ++ d :: p, q, ha, by simp, by simp [join], by simp⟩
  -- the second part holds a delimiter and something else
  obtain ⟨hmem, hne⟩ : d ∈ b ∧ b ≠ [d] := by
    by_contra hcon
    exact h ⟨ha', by tauto, hc⟩
  obtain ⟨p, q, rfl⟩ := List.append_of_mem hmem
  cases p with
  | nil => exact ⟨a ++ [d], q, c, by simp, by simpa using hne, by simp [join], by simp⟩
  | cons x p => exact ⟨a, x :: p, q ++ d :: c, ha, by simp, by simp [join], by simp⟩

/-- **Which words have one reading.** -/
theorem join_unique_iff (ha : a ≠ []) (hb : b ≠ []) :
    (∀ a' b' c', a' ≠ [] → b' ≠ [] → join d a' b' c' = join d a b c →
      a' = a ∧ b' = b ∧ c' = c) ↔ Unambiguous d a b c := by
  constructor
  · intro h
    by_contra hcon
    obtain ⟨a', b', c', ha', hb', heq, hne⟩ := exists_join_eq ha hb hcon
    exact hne (h a' b' c' ha' hb' heq)
  · intro h a' b' c' ha' hb' heq
    exact h.eq_of_join_eq ha' hb' heq

end Delimited
