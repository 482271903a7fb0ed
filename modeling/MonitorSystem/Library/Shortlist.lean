import Mathlib.Data.List.Perm.Subperm
import MonitorSystem.Library.Paging

/-!
# Searching a shortlist

Elements are ranked, and only the first `n` of them are looked at. A search takes those of
the shortlist with a property `q`; what was found is then looked up in a shortlist that is
made anew, and where nothing was found the whole new shortlist is taken instead
(`Shortlist.pick`).

The two shortlists are cut from arrangements of their own, so tied elements may stand
differently in them. `Shortlist.complete_iff` says when this procedure gives, for all
arrangements, the elements with `q` and `e`, and as many of them as `n` allows, although
neither step looks at all elements and `e` is not looked at anywhere.
-/

namespace Shortlist

open Paging

variable {α : Type*} {before : α → α → Prop} [DecidableRel before] {rows l l₁ l₂ : List α}
  {n : ℕ} {x : α}

/-! ### Being on a shortlist -/

theorem ahead_lt_of_mem_take (h : WeakOrder before) (hl : Listing before rows l)
    (hx : x ∈ l.take n) : ahead before rows x < n := by
  obtain ⟨i, hi⟩ := List.mem_iff_getElem?.mp hx
  rw [List.getElem?_take] at hi
  split at hi
  · next hlt => exact lt_of_le_of_lt (hl.position h hi).1 hlt
  · cases hi

/-- An element whose whole group fits is on every shortlist. -/
theorem mem_take_of_le (h : WeakOrder before) (hl : Listing before rows l) (hx : x ∈ rows)
    (hle : ahead before rows x + tied before rows x ≤ n) : x ∈ l.take n := by
  obtain ⟨i, hi⟩ := List.mem_iff_getElem?.mp (hl.perm.mem_iff.mpr hx)
  have hlt : i < n := (hl.position h hi).2.trans_le hle
  exact List.mem_iff_getElem?.mpr ⟨i, by rw [List.getElem?_take, if_pos hlt, hi]⟩

/-- An element with less than `n` before it is on some shortlist. -/
theorem exists_mem_take (h : WeakOrder before) (hx : x ∈ rows) (hlt : ahead before rows x < n) :
    ∃ l, Listing before rows l ∧ x ∈ l.take n := by
  obtain ⟨⟨l, hl, hat⟩, -⟩ := exists_first_last h hx
  exact ⟨l, hl, List.mem_iff_getElem?.mpr ⟨_, by rw [List.getElem?_take, if_pos hlt, hat]⟩⟩

/-- An element whose group does not fit is missing on some shortlist. -/
theorem exists_notMem_take (h : WeakOrder before) (hrows : rows.Nodup) (hx : x ∈ rows)
    (hlt : n < ahead before rows x + tied before rows x) :
    ∃ l, Listing before rows l ∧ x ∉ l.take n := by
  obtain ⟨-, l, hl, hat⟩ := exists_first_last h hx
  refine ⟨l, hl, fun hmem => ?_⟩
  obtain ⟨i, hi⟩ := List.mem_iff_getElem?.mp hmem
  rw [List.getElem?_take] at hi
  split at hi
  · next hin =>
    -- an element stands in one place only
    have hnodup : l.Nodup := hl.perm.nodup_iff.mpr hrows
    obtain ⟨hbound, -⟩ := List.getElem?_eq_some_iff.mp hi
    have hsame := (List.getElem?_inj hbound hnodup).mp (hi.trans hat.symm)
    omega
  · cases hi

/-! ### Searching one shortlist and looking up in another one -/

variable [DecidableEq α] {q e : α → Bool}

/-- **What is taken**: the elements found on the first shortlist that are on the second one,
or the second shortlist if nothing was found. -/
def pick (n : ℕ) (q : α → Bool) (l₁ l₂ : List α) : List α :=
  if (l₁.take n).filter q = [] then l₂.take n
  else (l₂.take n).filter fun x => x ∈ (l₁.take n).filter q

/-- **The result is what is wanted**: elements with `q` and `e`, and as many as there are or
as may be returned. -/
structure Complete (n : ℕ) (q e : α → Bool) (rows result : List α) : Prop where
  sound : ∀ x ∈ result, q x = true ∧ e x = true
  length : result.length = min n (rows.filter fun x => q x && e x).length

/-- **The condition on the elements**: there is something to be found; nothing else that a
search can find has `q`; and the wanted elements are on every shortlist, or every shortlist
holds wanted elements only and the same ones. -/
structure Sufficient (before : α → α → Prop) [DecidableRel before] (n : ℕ) (q e : α → Bool)
    (rows : List α) : Prop where
  exists_wanted : ∃ x ∈ rows, q x = true ∧ e x = true
  found : ∀ x ∈ rows, q x = true → ahead before rows x < n → e x = true
  reached : (∀ x ∈ rows, q x = true → e x = true →
      ahead before rows x + tied before rows x ≤ n) ∨
    ∀ x ∈ rows, ahead before rows x < n → q x = true ∧ e x = true ∧
      ahead before rows x + tied before rows x ≤ n

theorem mem_pick_self (hx : x ∈ l.take n) (hq : q x = true) : x ∈ pick n q l l := by
  have hfound : x ∈ (l.take n).filter q := List.mem_filter.mpr ⟨hx, hq⟩
  rw [pick, if_neg (List.ne_nil_of_mem hfound)]
  exact List.mem_filter.mpr ⟨hx, by simpa using hfound⟩

/-- What is taken is part of the second shortlist. -/
theorem pick_sublist : (pick n q l₁ l₂).Sublist (l₂.take n) := by
  unfold pick
  split
  · exact List.Sublist.refl _
  · exact List.filter_sublist

/-- The elements that are wanted. -/
def wanted (q e : α → Bool) (rows : List α) : List α := rows.filter fun x => q x && e x

omit [DecidableEq α] in
theorem mem_wanted : x ∈ wanted q e rows ↔ x ∈ rows ∧ q x = true ∧ e x = true := by
  simp [wanted]

/-- What is taken is not empty, if there is an element at all. -/
theorem pick_self_ne_nil (hn : 0 < n) (hl : l ≠ []) : pick n q l l ≠ [] := by
  rcases hfilter : (l.take n).filter q with _ | ⟨x, found⟩
  · rw [pick, if_pos hfilter]
    simpa [hn.ne'] using hl
  · have hx : x ∈ (l.take n).filter q := hfilter ▸ List.mem_cons_self
    obtain ⟨hmem, hq⟩ := List.mem_filter.mp hx
    exact List.ne_nil_of_mem (mem_pick_self hmem hq)

section Necessary

variable (h : WeakOrder before) (hrows : rows.Nodup)
  (hall : ∀ l₁ l₂, Listing before rows l₁ → Listing before rows l₂ →
    Complete n q e rows (pick n q l₁ l₂))

include hall

theorem found_of_complete (h : WeakOrder before) (hx : x ∈ rows) (hq : q x = true)
    (hlt : ahead before rows x < n) : e x = true := by
  obtain ⟨l, hl, hmem⟩ := exists_mem_take h hx hlt
  exact ((hall l l hl hl).sound x (mem_pick_self hmem hq)).2

theorem exists_wanted_of_complete (h : WeakOrder before) (hn : 0 < n) (hne : rows ≠ []) :
    ∃ x ∈ rows, q x = true ∧ e x = true := by
  obtain ⟨l, hperm, hsorted⟩ := exists_sorted h rows
  have hl : Listing before rows l := ⟨hperm, hsorted⟩
  obtain ⟨x, hx⟩ := List.exists_mem_of_ne_nil _ (pick_self_ne_nil (q := q) hn (by
    rintro rfl
    exact hne (List.nil_perm.mp hperm) : l ≠ []))
  exact ⟨x, hperm.mem_iff.mp (List.mem_of_mem_take (pick_sublist.subset hx)),
    (hall l l hl hl).sound x hx⟩

include hrows

omit [DecidableRel before] in
/-- **A shortlist on which a wanted element is missing is full of wanted elements.** -/
theorem take_of_missing (hl : Listing before rows l) (hx : x ∈ wanted q e rows)
    (hmissing : x ∉ l.take n) :
    (∀ y ∈ l.take n, y ∈ wanted q e rows) ∧ (l.take n).length = n := by
  have hcomplete := hall l l hl hl
  have hnodup : (l.take n).Nodup :=
    (hl.perm.nodup_iff.mpr hrows).sublist (List.take_sublist n l)
  have hsub : (pick n q l l).Sublist (l.take n) := pick_sublist
  have hwanted : ∀ y ∈ pick n q l l, y ∈ wanted q e rows := fun y hy =>
    mem_wanted.mpr ⟨hl.perm.mem_iff.mp (List.mem_of_mem_take (hsub.subset hy)),
      hcomplete.sound y hy⟩
  -- one more element is wanted than is taken, so as many are taken as may be
  have hcons : (x :: pick n q l l).Nodup :=
    List.nodup_cons.mpr ⟨fun hmem => hmissing (hsub.subset hmem), hnodup.sublist hsub⟩
  have hmore : (x :: pick n q l l).length ≤ (wanted q e rows).length :=
    (List.subperm_of_subset hcons (List.forall_mem_cons.mpr ⟨hx, hwanted⟩)).length_le
  have hlength := hcomplete.length
  have htake := List.length_take_le n l
  have heq : pick n q l l = l.take n := by
    refine hsub.eq_of_length_le ?_
    rw [List.length_cons, wanted] at hmore
    omega
  rw [heq] at hwanted hlength
  refine ⟨hwanted, ?_⟩
  rw [heq, List.length_cons, wanted] at hmore
  omega

/-- Where a wanted element can be missing, all that can be on a shortlist is wanted. -/
theorem wanted_of_missing (h : WeakOrder before) {m : α} (hm : m ∈ wanted q e rows)
    (hlate : n < ahead before rows m + tied before rows m) (hx : x ∈ rows)
    (hlt : ahead before rows x < n) : x ∈ wanted q e rows := by
  obtain ⟨l, hl, hmissing⟩ := exists_notMem_take h hrows (mem_wanted.mp hm).1 hlate
  obtain ⟨hfull, hlength⟩ := take_of_missing hrows hall hl hm hmissing
  obtain ⟨l', hl', hmem⟩ := exists_mem_take h hx hlt
  by_contra hx'
  have hmany : n ≤ (wanted q e rows).length := by
    have hnodup : (l.take n).Nodup :=
      (hl.perm.nodup_iff.mpr hrows).sublist (List.take_sublist n l)
    rw [← hlength]
    exact (List.subperm_of_subset hnodup hfull).length_le
  -- all wanted elements stand beside `x` on the second shortlist
  have hthere : ∀ y ∈ wanted q e rows, y ∈ l'.take n := fun y hy => by
    by_contra hy'
    exact hx' ((take_of_missing hrows hall hl' hy hy').1 x hmem)
  have hcons : (x :: wanted q e rows).Nodup :=
    List.nodup_cons.mpr ⟨hx', hrows.sublist List.filter_sublist⟩
  have hfew := (List.subperm_of_subset hcons (List.forall_mem_cons.mpr ⟨hmem, hthere⟩)).length_le
  have := List.length_take_le n l'
  rw [List.length_cons] at hfew
  omega

/-- And then every shortlist holds the same elements. -/
theorem fixed_of_missing (h : WeakOrder before) {m : α} (hm : m ∈ wanted q e rows)
    (hlate : n < ahead before rows m + tied before rows m) (hx : x ∈ rows)
    (hlt : ahead before rows x < n) : ahead before rows x + tied before rows x ≤ n := by
  by_contra hcon
  obtain ⟨l, hl, hmissing⟩ := exists_notMem_take h hrows (mem_wanted.mp hm).1 hlate
  obtain ⟨hfull, hlength⟩ := take_of_missing hrows hall hl hm hmissing
  obtain ⟨l₁, hl₁, hmem⟩ := exists_mem_take h hx hlt
  obtain ⟨l₂, hl₂, hnot⟩ := exists_notMem_take h hrows hx (not_le.mp hcon)
  have hrowsLength : n ≤ rows.length := by
    rw [← hl.perm.length_eq]
    rw [List.length_take] at hlength
    omega
  have hlength₁ : (l₁.take n).length = n := by
    rw [List.length_take, hl₁.perm.length_eq]
    omega
  have hlength₂ : (l₂.take n).length = n := by
    rw [List.length_take, hl₂.perm.length_eq]
    omega
  have hmany : n ≤ (wanted q e rows).length := by
    have hnodup : (l.take n).Nodup :=
      (hl.perm.nodup_iff.mpr hrows).sublist (List.take_sublist n l)
    calc n = (l.take n).length := hlength.symm
      _ ≤ (wanted q e rows).length := (List.subperm_of_subset hnodup hfull).length_le
  -- the search finds the whole first shortlist
  have hq : (l₁.take n).filter q = l₁.take n := by
    rw [List.filter_eq_self]
    intro y hy
    have hwanted := wanted_of_missing hrows hall h hm hlate
      (hl₁.perm.mem_iff.mp (List.mem_of_mem_take hy)) (ahead_lt_of_mem_take h hl₁ hy)
    exact (mem_wanted.mp hwanted).2.1
  have hpick : pick n q l₁ l₂ = (l₂.take n).filter fun y => y ∈ l₁.take n := by
    rw [pick, hq, if_neg (List.ne_nil_of_mem hmem)]
  have hcomplete := (hall l₁ l₂ hl₁ hl₂).length
  rw [hpick] at hcomplete
  have hself : (l₂.take n).filter (fun y => y ∈ l₁.take n) = l₂.take n := by
    refine List.filter_sublist.eq_of_length_le ?_
    rw [wanted] at hmany
    omega
  have hsubset : l₂.take n ⊆ l₁.take n := fun y hy => by
    rw [← hself] at hy
    simpa using (List.mem_filter.mp hy).2
  have hperm : (l₂.take n).Perm (l₁.take n) :=
    (List.subperm_of_subset ((hl₂.perm.nodup_iff.mpr hrows).sublist (List.take_sublist n l₂))
      hsubset).perm_of_length_le (by omega)
  exact hnot (hperm.mem_iff.mpr hmem)

end Necessary

section Enough

variable (h : WeakOrder before) (hrows : rows.Nodup) (hl₁ : Listing before rows l₁)
  (hl₂ : Listing before rows l₂)

include h hrows hl₁ hl₂

/-- Where all wanted elements are on every shortlist, they are what is taken. -/
theorem complete_of_reached (hs : Sufficient before n q e rows)
    (hreached : ∀ x ∈ rows, q x = true → e x = true →
      ahead before rows x + tied before rows x ≤ n) :
    Complete n q e rows (pick n q l₁ l₂) := by
  have hthere : ∀ {l}, Listing before rows l → ∀ x ∈ wanted q e rows, x ∈ l.take n := by
    intro l hl x hx
    obtain ⟨hmem, hq, he⟩ := mem_wanted.mp hx
    exact mem_take_of_le h hl hmem (hreached x hmem hq he)
  have hfound : ∀ x, x ∈ (l₁.take n).filter q ↔ x ∈ wanted q e rows := by
    intro x
    rw [List.mem_filter, mem_wanted]
    constructor
    · rintro ⟨hmem, hq⟩
      have hrow := hl₁.perm.mem_iff.mp (List.mem_of_mem_take hmem)
      exact ⟨hrow, hq, hs.found x hrow hq (ahead_lt_of_mem_take h hl₁ hmem)⟩
    · rintro ⟨hrow, hq, he⟩
      exact ⟨hthere hl₁ x (mem_wanted.mpr ⟨hrow, hq, he⟩), hq⟩
  obtain ⟨m, hm, hmq, hme⟩ := hs.exists_wanted
  have hm' : m ∈ wanted q e rows := mem_wanted.mpr ⟨hm, hmq, hme⟩
  have hpick : ∀ x, x ∈ pick n q l₁ l₂ ↔ x ∈ wanted q e rows := by
    intro x
    rw [pick, if_neg (List.ne_nil_of_mem ((hfound m).mpr hm')), List.mem_filter,
      decide_eq_true_eq, hfound]
    exact ⟨fun hx => hx.2, fun hx => ⟨hthere hl₂ x hx, hx⟩⟩
  have hnodup : (pick n q l₁ l₂).Nodup :=
    (hl₂.perm.nodup_iff.mpr hrows).sublist (pick_sublist.trans (List.take_sublist n l₂))
  have hperm : (pick n q l₁ l₂).Perm (wanted q e rows) :=
    (List.perm_ext_iff_of_nodup hnodup (hrows.sublist List.filter_sublist)).mpr hpick
  have hle : (pick n q l₁ l₂).length ≤ n :=
    pick_sublist.length_le.trans (List.length_take_le n l₂)
  refine ⟨fun x hx => (mem_wanted.mp ((hpick x).mp hx)).2, ?_⟩
  have hlength := hperm.length_eq
  rw [wanted] at hlength
  omega

/-- Where every shortlist holds the same wanted elements and no other ones, they are what is
taken. -/
theorem complete_of_fixed (hn : 0 < n) (hne : rows ≠ [])
    (hfixed : ∀ x ∈ rows, ahead before rows x < n → q x = true ∧ e x = true ∧
      ahead before rows x + tied before rows x ≤ n) :
    Complete n q e rows (pick n q l₁ l₂) := by
  have hwanted : ∀ {l}, Listing before rows l → ∀ x ∈ l.take n, x ∈ wanted q e rows := by
    intro l hl x hx
    have hrow := hl.perm.mem_iff.mp (List.mem_of_mem_take hx)
    obtain ⟨hq, he, -⟩ := hfixed x hrow (ahead_lt_of_mem_take h hl hx)
    exact mem_wanted.mpr ⟨hrow, hq, he⟩
  have hq : (l₁.take n).filter q = l₁.take n :=
    List.filter_eq_self.mpr fun x hx => (mem_wanted.mp (hwanted hl₁ x hx)).2.1
  have hne₁ : l₁.take n ≠ [] := by
    have : l₁ ≠ [] := by
      rintro rfl
      exact hne (List.nil_perm.mp hl₁.perm)
    simpa [hn.ne'] using this
  have hpick : pick n q l₁ l₂ = l₂.take n := by
    rw [pick, hq, if_neg hne₁, List.filter_eq_self]
    intro x hx
    have hrow := hl₂.perm.mem_iff.mp (List.mem_of_mem_take hx)
    have hin := mem_take_of_le h hl₁ hrow (hfixed x hrow (ahead_lt_of_mem_take h hl₂ hx)).2.2
    simpa using hin
  rw [hpick]
  refine ⟨fun x hx => (mem_wanted.mp (hwanted hl₂ x hx)).2, ?_⟩
  have hnodup : (l₂.take n).Nodup :=
    (hl₂.perm.nodup_iff.mpr hrows).sublist (List.take_sublist n l₂)
  have hmany := (List.subperm_of_subset hnodup (hwanted hl₂)).length_le
  have hfew : (wanted q e rows).length ≤ rows.length := List.filter_sublist.length_le
  rw [List.length_take, hl₂.perm.length_eq] at hmany ⊢
  rw [wanted] at hmany hfew
  omega

end Enough

/-- **When the search over shortlists gives what is wanted**, for all arrangements. -/
theorem complete_iff (h : WeakOrder before) (hrows : rows.Nodup) (hn : 0 < n) :
    (∀ l₁ l₂, Listing before rows l₁ → Listing before rows l₂ →
      Complete n q e rows (pick n q l₁ l₂)) ↔
      rows = [] ∨ Sufficient before n q e rows := by
  constructor
  · intro hall
    by_cases hne : rows = []
    · exact .inl hne
    refine .inr ⟨exists_wanted_of_complete hall h hn hne,
      fun x hx hq hlt => found_of_complete hall h hx hq hlt, ?_⟩
    by_cases hreached : ∀ x ∈ rows, q x = true → e x = true →
        ahead before rows x + tied before rows x ≤ n
    · exact .inl hreached
    · obtain ⟨m, hm, hmq, hme, hlate⟩ : ∃ m ∈ rows, q m = true ∧ e m = true ∧
          n < ahead before rows m + tied before rows m := by
        simpa using hreached
      have hwanted : m ∈ wanted q e rows := mem_wanted.mpr ⟨hm, hmq, hme⟩
      refine .inr fun x hx hlt => ?_
      obtain ⟨-, hq, he⟩ := mem_wanted.mp (wanted_of_missing hrows hall h hwanted hlate hx hlt)
      exact ⟨hq, he, fixed_of_missing hrows hall h hwanted hlate hx hlt⟩
  · rintro (rfl | hs) l₁ l₂ hl₁ hl₂
    · obtain rfl := List.perm_nil.mp hl₁.perm
      obtain rfl := List.perm_nil.mp hl₂.perm
      exact ⟨by simp [pick], by simp [pick]⟩
    · rcases hs.reached with hreached | hfixed
      · exact complete_of_reached h hrows hl₁ hl₂ hs hreached
      · obtain ⟨m, hm, -⟩ := hs.exists_wanted
        exact complete_of_fixed h hrows hl₁ hl₂ hn (List.ne_nil_of_mem hm) hfixed

end Shortlist
