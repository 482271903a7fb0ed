import Mathlib.Data.List.Basic

/-!
# Cutting a stream at delimiters

A stream arrives in pieces, and what it carries is what stands between its delimiters. The
reader keeps what is behind the last delimiter, puts each new piece behind it and cuts again.
Where the pieces end does not matter (`Framing.Delimiter.split_append`) if the first delimiter
of a text is still its first one when more text is put behind it, which is what is asked of a
`Framing.Delimiter`.
-/

namespace Framing

variable {α : Type*}

/-! ### Delimiters -/

/-- The text before the first delimiter and the one behind it; a delimiter is given by what is
left of a text that begins with it. -/
def cutWith (strip : List α → Option (List α)) : List α → Option (List α × List α)
  | [] => none
  | c :: s =>
    match strip (c :: s) with
    | some r => some ([], r)
    | none => (cutWith strip s).map fun x => (c :: x.1, x.2)

/-- **A delimiter** whose first occurrence is found as soon as it is there. -/
structure Delimiter (α : Type*) where
  strip : List α → Option (List α)
  shorter : ∀ {s r}, strip s = some r → r.length < s.length
  stable : ∀ {s b a} (t : List α), cutWith strip s = some (b, a) →
    cutWith strip (s ++ t) = some (b, a ++ t)

variable {strip : List α → Option (List α)} {s : List α}

theorem cutWith_of_strip {c : α} {r : List α} (h : strip (c :: s) = some r) :
    cutWith strip (c :: s) = some ([], r) := by
  rw [cutWith, h]

theorem cutWith_of_none {c : α} (h : strip (c :: s) = none) :
    cutWith strip (c :: s) = (cutWith strip s).map fun x => (c :: x.1, x.2) := by
  rw [cutWith, h]

/-- **When the first delimiter stays the first one**: more text behind it does not change a
delimiter, and makes none where another one comes later. -/
theorem cutWith_stable (strip : List α → Option (List α))
    (happend : ∀ {s r} (t : List α), strip s = some r → strip (s ++ t) = some (r ++ t))
    (hnone : ∀ {c s x} (t : List α), strip (c :: s) = none → cutWith strip s = some x →
      strip (c :: s ++ t) = none) {b a : List α} (t : List α) (h : cutWith strip s = some (b, a)) :
    cutWith strip (s ++ t) = some (b, a ++ t) := by
  induction s generalizing b a with
  | nil => cases h
  | cons c s ih =>
    cases hstrip : strip (c :: s) with
    | some r =>
      rw [cutWith_of_strip hstrip] at h
      obtain ⟨rfl, rfl⟩ := Prod.mk.inj (Option.some.inj h)
      exact cutWith_of_strip (happend t hstrip)
    | none =>
      rw [cutWith_of_none hstrip] at h
      obtain ⟨⟨b', a'⟩, hcut, heq⟩ := Option.map_eq_some_iff.mp h
      obtain ⟨rfl, rfl⟩ := Prod.mk.inj heq
      have hstay : strip (c :: (s ++ t)) = none := hnone t hstrip hcut
      rw [List.cons_append, cutWith_of_none hstay, ih hcut, Option.map_some]

namespace Delimiter

variable (D : Delimiter α)

/-- What is before the first delimiter and what is behind it. -/
def cut (s : List α) : Option (List α × List α) := cutWith D.strip s

theorem cut_of_strip {c : α} {r : List α} (h : D.strip (c :: s) = some r) :
    D.cut (c :: s) = some ([], r) :=
  cutWith_of_strip h

theorem cut_of_none {c : α} (h : D.strip (c :: s) = none) :
    D.cut (c :: s) = (D.cut s).map fun x => (c :: x.1, x.2) :=
  cutWith_of_none h

theorem shorter_of_cut {b a : List α} (h : D.cut s = some (b, a)) : a.length < s.length := by
  unfold cut at h
  induction s generalizing b a with
  | nil => cases h
  | cons c s ih =>
    cases hstrip : D.strip (c :: s) with
    | some r =>
      rw [cutWith_of_strip hstrip] at h
      obtain ⟨-, rfl⟩ := Prod.mk.inj (Option.some.inj h)
      exact D.shorter hstrip
    | none =>
      rw [cutWith_of_none hstrip] at h
      obtain ⟨⟨b', a'⟩, hcut, heq⟩ := Option.map_eq_some_iff.mp h
      obtain ⟨-, rfl⟩ := Prod.mk.inj heq
      exact Nat.lt_succ_of_lt (ih hcut)

/-- **All that stands before delimiters, and the rest.** -/
def split (s : List α) : List (List α) × List α :=
  match h : D.cut s with
  | none => ([], s)
  | some (b, a) =>
    have : a.length < s.length := D.shorter_of_cut h
    let r := split a
    (b :: r.1, r.2)
termination_by s.length

theorem split_of_none (h : D.cut s = none) : D.split s = ([], s) := by
  rw [split]
  split
  · rfl
  · next hcut => exact absurd (h.symm.trans hcut) (by simp)

theorem split_of_cut {b a : List α} (h : D.cut s = some (b, a)) :
    D.split s = (b :: (D.split a).1, (D.split a).2) := by
  rw [split]
  split
  · next hcut => exact absurd (h.symm.trans hcut) (by simp)
  · next hcut =>
    obtain ⟨rfl, rfl⟩ := Prod.mk.inj (Option.some.inj (h.symm.trans hcut))
    rfl

/-- **Text that is put behind another one** is cut together with the rest of that. -/
theorem split_append (s t : List α) :
    D.split (s ++ t) =
      ((D.split s).1 ++ (D.split ((D.split s).2 ++ t)).1, (D.split ((D.split s).2 ++ t)).2) := by
  induction hlength : s.length using Nat.strongRecOn generalizing s with
  | _ n ih =>
    subst hlength
    cases hcut : D.cut s with
    | none => rw [D.split_of_none hcut, List.nil_append]
    | some x =>
      obtain ⟨b, a⟩ := x
      have hstable : D.cut (s ++ t) = some (b, a ++ t) := D.stable t hcut
      rw [D.split_of_cut hcut, D.split_of_cut hstable, ih _ (D.shorter_of_cut hcut) a rfl,
        List.cons_append]

end Delimiter

end Framing
