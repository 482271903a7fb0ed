import Mathlib.Algebra.GroupWithZero.Nat
import Mathlib.Data.List.Basic
import Mathlib.Data.List.Flatten
import Mathlib.Data.List.Nodup
import Mathlib.Logic.Function.Basic

/-!
# Facts about lists

What a list of threads contributes to a count or to a pool when one thread moves,
how restrictions of a history compose, a restriction as a `flatMap`, and when a restriction
loses nothing of what the elements contribute.
-/

namespace Lists

variable {α : Type*} {p q : α → Bool} {l : List α}

/-- Replacing one entry changes a count by what the two entries count. -/
theorem countP_set_add {i : ℕ} {a : α} (b : α) (h : l[i]? = some a) :
    (l.set i b).countP p + (if p a then 1 else 0) = l.countP p + if p b then 1 else 0 := by
  induction l generalizing i with
  | nil => simp at h
  | cons c l ih =>
    cases i with
    | zero =>
      obtain rfl : c = a := by simpa using h
      simp only [List.set_cons_zero, List.countP_cons]
      omega
    | succ i =>
      have hi := ih (i := i) (by simpa using h)
      simp only [List.set_cons_succ, List.countP_cons]
      omega

/-- Replacing one entry changes a sum by what the two entries add to it. -/
theorem sum_map_set_add {f : α → ℕ} {i : ℕ} {a : α} (b : α) (h : l[i]? = some a) :
    ((l.set i b).map f).sum + f a = (l.map f).sum + f b := by
  induction l generalizing i with
  | nil => simp at h
  | cons c l ih =>
    cases i with
    | zero =>
      obtain rfl : c = a := by simpa using h
      simp only [List.set_cons_zero, List.map_cons, List.sum_cons]
      omega
    | succ i =>
      have hi := ih (i := i) (by simpa using h)
      simp only [List.set_cons_succ, List.map_cons, List.sum_cons]
      omega

/-- Changing a function at one place changes a count by what the two values count. -/
theorem countP_update_add {β : Type*} [DecidableEq α] {f : α → β} {c : α} (b : β) (P : β → Bool)
    (hl : l.Nodup) (hc : c ∈ l) :
    (l.countP fun a => P (Function.update f c b a)) + (if P (f c) then 1 else 0) =
      (l.countP fun a => P (f a)) + if P b then 1 else 0 := by
  induction l with
  | nil => cases hc
  | cons a l ih =>
    obtain ⟨hnot, hl⟩ := List.nodup_cons.mp hl
    simp only [List.countP_cons]
    by_cases h : c = a
    · subst h
      have hrest : (l.countP fun a => P (Function.update f c b a)) = l.countP fun a => P (f a) :=
        List.countP_congr fun x hx => by
          rw [Function.update_of_ne (ne_of_mem_of_not_mem hx hnot)]
      rw [hrest, Function.update_self]
      omega
    · have htail := ih hl ((List.mem_cons.mp hc).resolve_left h)
      rw [Function.update_of_ne (Ne.symm h)]
      omega

/-- Replacing one entry exchanges, up to order, what the two entries contribute. -/
theorem flatMap_set_perm {β : Type*} {f : α → List β} {i : ℕ} {a : α} (b : α)
    (h : l[i]? = some a) : (f a ++ (l.set i b).flatMap f).Perm (f b ++ l.flatMap f) := by
  induction l generalizing i with
  | nil => simp at h
  | cons c l ih =>
    cases i with
    | zero =>
      obtain rfl : c = a := by simpa using h
      simp only [List.set_cons_zero, List.flatMap_cons]
      exact List.perm_append_comm_assoc _ _ _
    | succ i =>
      simp only [List.set_cons_succ, List.flatMap_cons]
      have hswap : (f c ++ (f a ++ (l.set i b).flatMap f)).Perm (f c ++ (f b ++ l.flatMap f)) :=
        (ih (by simpa using h)).append_left _
      exact (List.perm_append_comm_assoc _ _ _).trans
        (hswap.trans (List.perm_append_comm_assoc _ _ _))

/-- Restricting a list to a predicate that implies another one may be done in two
stages. -/
theorem filter_of_imp (h : ∀ a, p a = true → q a = true) (l : List α) :
    l.filter p = (l.filter q).filter p := by
  rw [List.filter_filter]
  refine List.filter_congr fun a _ => ?_
  cases hp : p a with
  | false => rfl
  | true => simp [h a hp]

/-- The elements that satisfy a predicate, one by one. -/
theorem flatMap_ite (p : α → Prop) [DecidablePred p] (l : List α) :
    (l.flatMap fun a => if p a then [a] else []) = l.filter fun a => p a := by
  induction l with
  | nil => rfl
  | cons a l ih =>
    rw [List.flatMap_cons, ih]
    by_cases h : p a <;> simp [h]

/-- What a list contributes is what its parts contribute. -/
theorem length_flatMap_filter_add {β : Type*} (p : α → Bool) (f : α → List β) (l : List α) :
    ((l.filter p).flatMap f).length + ((l.filter (! p ·)).flatMap f).length =
      (l.flatMap f).length := by
  induction l with
  | nil => rfl
  | cons a l ih =>
    cases h : p a <;> simp only [List.filter_cons, h, Bool.not_false, Bool.not_true, if_true,
      if_false, Bool.false_eq_true, List.flatMap_cons, List.length_append] <;> omega

/-- **A restriction loses nothing if and only if what it drops contributes nothing.** -/
theorem perm_flatMap_filter_iff {β : Type*} {f : α → List β} :
    ((l.filter p).flatMap f).Perm (l.flatMap f) ↔ ∀ a ∈ l, p a = false → f a = [] := by
  have hadd := length_flatMap_filter_add p f l
  constructor
  · intro hperm a ha hp
    have hnil : (l.filter (! p ·)).flatMap f = [] := by
      rw [← List.length_eq_zero_iff]
      have := hperm.length_eq
      omega
    exact List.flatMap_eq_nil_iff.mp hnil a (List.mem_filter.mpr ⟨ha, by simp [hp]⟩)
  · intro h
    have hsublist : ((l.filter p).flatMap f).Sublist (l.flatMap f) :=
      List.filter_sublist.flatMap f
    have hnil : (l.filter (! p ·)).flatMap f = [] := by
      refine List.flatMap_eq_nil_iff.mpr fun a ha => ?_
      obtain ⟨hmem, hp⟩ := List.mem_filter.mp ha
      exact h a hmem (by simpa using hp)
    rw [hnil, List.length_nil, Nat.add_zero] at hadd
    rw [hsublist.eq_of_length hadd]

/-- The same for a family of lists. -/
theorem perm_flatMap_flatMap_filter_iff {β σ : Type*} {A : σ → List α} {p : σ → α → Bool}
    {f : σ → α → List β} (ss : List σ) :
    (ss.flatMap fun s => ((A s).filter (p s)).flatMap (f s)).Perm
        (ss.flatMap fun s => (A s).flatMap (f s)) ↔
      ∀ s ∈ ss, ∀ a ∈ A s, p s a = false → f s a = [] := by
  have h := perm_flatMap_filter_iff (l := ss.flatMap fun s => (A s).map (s, ·))
    (p := fun x => p x.1 x.2) (f := fun x => f x.1 x.2)
  simp only [List.filter_flatMap, List.filter_map, List.flatMap_assoc, List.flatMap_map,
    Function.comp_def, List.mem_flatMap, List.mem_map, forall_exists_index, and_imp] at h
  rw [h]
  constructor
  · intro hall s hs a ha hp
    exact hall (s, a) s hs a ha rfl hp
  · rintro hall _ s hs a ha rfl hp
    exact hall s hs a ha hp

end Lists
