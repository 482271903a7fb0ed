import Mathlib.Data.List.DropRight
import Mathlib.Data.List.Infix

/-!
# The last entries of a list

A bounded log keeps the last entries of what has been written to it, `List.rtake`. It may be cut
again and again while it grows: what is left are the last entries of all that was ever written
(`Windows.rtake_rtake_append`), and a window of a window is the narrower of the two
(`Windows.rtake_rtake`).

A window may also be printed, entry by entry with a separator, and cut again by its letters.
Two windows of different sizes then look alike only if there is nothing more in the wider one,
or if the last letters are all in the narrower one (`Windows.rtake_eq_iff_of_suffix`,
`Windows.length_intercalate_lt`).
-/

namespace Windows

variable {α : Type*} {l l' : List α} {n : ℕ}

/-! ### Windows -/

theorem rtake_suffix (n : ℕ) (l : List α) : l.rtake n <:+ l := List.drop_suffix _ _

theorem rtake_of_length_le (h : l.length ≤ n) : l.rtake n = l := by
  rw [List.rtake, Nat.sub_eq_zero_of_le h, List.drop_zero]

theorem length_rtake (n : ℕ) (l : List α) : (l.rtake n).length = min n l.length := by
  rw [List.rtake, List.length_drop]
  omega

/-- The narrower window of two. -/
theorem rtake_rtake (m n : ℕ) (l : List α) : (l.rtake m).rtake n = l.rtake (min n m) := by
  simp only [List.rtake_eq_reverse_take_reverse, List.reverse_reverse, List.take_take]

/-- **What has been cut off before does not matter**: the window of a window and of new entries
is the window of all entries. -/
theorem rtake_rtake_append (n : ℕ) (l m : List α) :
    (l.rtake n ++ m).rtake n = (l ++ m).rtake n := by
  simp only [List.rtake_eq_reverse_take_reverse, List.reverse_append, List.reverse_reverse,
    List.take_append, List.take_take, List.length_reverse, Nat.min_eq_left (Nat.sub_le n m.length)]

/-- **When a list and its end have the same last entries**: if they are the same, or if all these
entries are in the end. -/
theorem rtake_eq_iff_of_suffix (h : l <:+ l') :
    l'.rtake n = l.rtake n ↔ l = l' ∨ n ≤ l.length := by
  obtain ⟨front, rfl⟩ := h
  constructor
  · intro heq
    by_cases hn : n ≤ l.length
    · exact .inr hn
    · -- the longer list has an entry more among the last ones
      have hlength := congrArg List.length heq
      rw [length_rtake, length_rtake, List.length_append] at hlength
      have hfront : front = [] := List.length_eq_zero_iff.mp (by omega)
      exact .inl (by rw [hfront, List.nil_append])
  · rintro (heq | hn)
    · rw [← heq]
    · rw [List.rtake, List.rtake, List.length_append, Nat.add_sub_assoc hn, List.drop_append,
        List.drop_eq_nil_of_le (Nat.le_add_right _ _), List.nil_append, Nat.add_sub_cancel_left]

/-! ### Printed windows -/

section Printed

variable {sep : List α} {xs ys : List (List α)}

theorem intercalate_suffix (h : xs <:+ ys) : sep.intercalate xs <:+ sep.intercalate ys := by
  obtain ⟨front, rfl⟩ := h
  rcases eq_or_ne xs [] with rfl | hne
  · exact List.nil_suffix
  induction front with
  | nil => exact List.suffix_rfl
  | cons x front ih =>
    rw [List.cons_append, List.intercalate_cons_of_ne_nil (by simp [hne])]
    exact ih.trans (List.suffix_append _ _)

/-- More entries are longer, if they are not empty. -/
theorem length_intercalate_lt (h : xs <:+ ys) (hlt : xs.length < ys.length)
    (hys : ∀ y ∈ ys, y ≠ []) : (sep.intercalate xs).length < (sep.intercalate ys).length := by
  obtain ⟨front, rfl⟩ := h
  cases front with
  | nil => simp at hlt
  | cons x front =>
    have hx : 0 < x.length := List.length_pos_iff.mpr (hys x (by simp))
    have hrest : (sep.intercalate xs).length ≤ (sep.intercalate (front ++ xs)).length :=
      (intercalate_suffix (List.suffix_append front xs)).length_le
    rcases eq_or_ne (front ++ xs) [] with hnil | hne
    · obtain ⟨rfl, rfl⟩ := List.append_eq_nil_iff.mp hnil
      simpa using hx
    · rw [List.cons_append, List.intercalate_cons_of_ne_nil hne, List.length_append,
        List.length_append]
      omega

/-- **When two printed windows have the same last letters.** -/
theorem rtake_intercalate_rtake_iff {m k : ℕ} (hys : ∀ y ∈ ys, y ≠ []) :
    (sep.intercalate (ys.rtake k)).rtake n = (sep.intercalate (ys.rtake (min k m))).rtake n ↔
      k ≤ m ∨ ys.length ≤ m ∨ n ≤ (sep.intercalate (ys.rtake m)).length := by
  rw [← rtake_rtake m k]
  have hcut : (ys.rtake m).rtake k <:+ ys.rtake k := by
    rw [rtake_rtake, Nat.min_comm, ← rtake_rtake]
    exact rtake_suffix _ _
  rw [rtake_eq_iff_of_suffix (intercalate_suffix hcut)]
  by_cases hall : k ≤ m ∨ ys.length ≤ m
  · have heq : (ys.rtake m).rtake k = ys.rtake k := by
      rcases hall with hk | hlength
      · rw [rtake_rtake, Nat.min_eq_left hk]
      · rw [rtake_of_length_le hlength]
    rw [heq]
    simp only [true_or, true_iff]
    exact hall.imp_right .inl
  · obtain ⟨hk, hlength⟩ := not_or.mp hall
    have hnarrow : (ys.rtake m).rtake k = ys.rtake m := by
      rw [rtake_rtake, Nat.min_eq_right (by omega)]
    rw [hnarrow] at hcut ⊢
    have hlt : (ys.rtake m).length < (ys.rtake k).length := by
      rw [length_rtake, length_rtake]
      omega
    have hne : (sep.intercalate (ys.rtake m)).length ≠ (sep.intercalate (ys.rtake k)).length :=
      (length_intercalate_lt hcut hlt fun y hy => hys y ((rtake_suffix k ys).subset hy)).ne
    constructor
    · rintro (heq | hn)
      · exact absurd (congrArg List.length heq) hne
      · exact .inr (.inr hn)
    · rintro (hle | hle | hn)
      · exact absurd hle hk
      · exact absurd hle hlength
      · exact .inr hn

end Printed

end Windows
