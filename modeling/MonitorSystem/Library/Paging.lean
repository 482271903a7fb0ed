import Mathlib.Data.List.Count
import Mathlib.Data.List.Nodup
import Mathlib.Data.List.Perm.Basic
import Mathlib.Data.List.Range

/-!
# Pages of a list that is sorted anew for each of them

A long list of rows is handed out page by page. If the order does not separate all rows,
each page may be cut from a different arrangement of them: `Paging.Listing before rows l`
says that `l` is one of the arrangements, and `Paging.page p k l` is the page with number
`k`, counted from zero, of `p` rows.

Whether the pages add up to the rows is a matter of the ties. In every arrangement a row
stands somewhere between `ahead`, the number of rows that come before it, and
`ahead + tied` (`Paging.Listing.position`); where no group of tied rows has the end of a
page in its middle, the page on which a row is found is always the same, and otherwise some
row is found on two pages, for some choice of the arrangements (`Paging.partition_iff`).
-/

namespace Paging

variable {α : Type*}

/-! ### Pages -/

/-- The page with number `k`, counted from zero. -/
def page (p k : ℕ) (l : List α) : List α := (l.drop (k * p)).take p

/-- How many pages it takes. -/
def pages (p n : ℕ) : ℕ := (n + p - 1) / p

theorem le_pages_mul {p : ℕ} (hp : 0 < p) (n : ℕ) : n ≤ pages p n * p := by
  unfold pages
  have := Nat.lt_div_mul_add hp (a := n + p - 1)
  omega

theorem lt_pages_iff {p : ℕ} (hp : 0 < p) (k n : ℕ) : k < pages p n ↔ k * p < n := by
  unfold pages
  rw [Nat.lt_iff_add_one_le, Nat.le_div_iff_mul_le hp, Nat.add_mul]
  omega

/-- **The pages of one arrangement, one after the other.** -/
theorem flatMap_page (p n : ℕ) (l : List α) :
    ((List.range n).flatMap fun k => page p k l) = l.take (n * p) := by
  induction n with
  | zero => simp
  | succ n ih =>
    rw [List.range_succ, List.flatMap_append, ih, Nat.succ_mul, List.take_add]
    simp [page]

theorem flatMap_pages {p : ℕ} (hp : 0 < p) (l : List α) :
    ((List.range (pages p l.length)).flatMap fun k => page p k l) = l := by
  rw [flatMap_page, List.take_of_length_le (le_pages_mul hp l.length)]

theorem getElem?_page {p k j : ℕ} (l : List α) (hj : j < p) :
    (page p k l)[j]? = l[k * p + j]? := by
  rw [page, List.getElem?_take_of_lt hj, List.getElem?_drop]

/-- A row at some position is on the page of that position. -/
theorem mem_page_of_getElem? {p i : ℕ} (hp : 0 < p) {l : List α} {x : α} (h : l[i]? = some x) :
    x ∈ page p (i / p) l := by
  refine List.mem_iff_getElem?.mpr ⟨i % p, ?_⟩
  rw [getElem?_page l (Nat.mod_lt i hp), Nat.div_add_mod', h]

/-! ### Arrangements -/

/-- A strict order in which elements may be tied. -/
structure WeakOrder (before : α → α → Prop) : Prop where
  asymm : ∀ a b, before a b → ¬ before b a
  split : ∀ a b c, before a c → before a b ∨ before b c

namespace WeakOrder

variable {before : α → α → Prop}

theorem irrefl (h : WeakOrder before) (a : α) : ¬ before a a := fun haa => h.asymm a a haa haa

theorem trans (h : WeakOrder before) {a b c : α} (hab : before a b) (hbc : before b c) :
    before a c :=
  (h.split a c b hab).resolve_right fun hcb => h.asymm b c hbc hcb

end WeakOrder

section Listing

variable (before : α → α → Prop)

/-- **The rows in an order that is asked for.** -/
structure Listing (rows l : List α) : Prop where
  perm : l.Perm rows
  sorted : l.Pairwise fun a b => ¬ before b a

variable [DecidableRel before]

/-- How many rows come before a row, in every arrangement. -/
def ahead (rows : List α) (x : α) : ℕ := rows.countP fun y => before y x

/-- How many rows are tied with a row, itself included. -/
def tied (rows : List α) (x : α) : ℕ := rows.countP fun y => ¬ before y x ∧ ¬ before x y

/-- **No group of tied rows has the end of a page in its middle.** -/
def Aligned (p : ℕ) (rows : List α) : Prop :=
  ∀ x ∈ rows, ∀ k,
    ¬ (ahead before rows x < k * p ∧ k * p < ahead before rows x + tied before rows x)

variable {before} {rows l : List α} {p : ℕ}

/-- Those ahead of a row and those tied with it are those that it is not ahead of. -/
theorem ahead_add_tied (h : WeakOrder before) (rows : List α) (x : α) :
    ahead before rows x + tied before rows x = rows.countP fun y => ¬ before x y := by
  induction rows with
  | nil => rfl
  | cons y rows ih =>
    unfold ahead tied at ih ⊢
    simp only [List.countP_cons]
    by_cases hyx : before y x
    · simp only [hyx, h.asymm y x hyx, not_true_eq_false, not_false_eq_true, false_and,
        decide_true, decide_false, Bool.false_eq_true, if_true, if_false]
      omega
    · simp only [hyx, not_false_eq_true, true_and, decide_false, Bool.false_eq_true, if_false]
      omega

/-- The rows in front of a row are ahead of it or tied with it, those behind it are not ahead
of it. -/
theorem count_of_sorted (h : WeakOrder before) {l₁ l₂ : List α} {x : α}
    (hl : (l₁ ++ x :: l₂).Pairwise fun a b => ¬ before b a) :
    ahead before (l₁ ++ x :: l₂) x ≤ l₁.length ∧
      l₁.length < ahead before (l₁ ++ x :: l₂) x + tied before (l₁ ++ x :: l₂) x := by
  rw [List.pairwise_append, List.pairwise_cons] at hl
  obtain ⟨-, ⟨hbehind, -⟩, hfront⟩ := hl
  have hself : ¬ before x x := h.irrefl x
  have hnone : l₂.countP (fun y => decide (before y x)) = 0 :=
    List.countP_eq_zero.mpr fun y hy => by simpa using hbehind y hy
  have htied : l₁.countP (fun y => decide (¬ before y x ∧ ¬ before x y)) =
      l₁.countP fun y => decide ¬ decide (before y x) = true :=
    List.countP_congr fun y hy => by simp [hfront y hy x List.mem_cons_self]
  have hlength := List.length_eq_countP_add_countP (l := l₁) fun y => decide (before y x)
  unfold ahead tied
  rw [List.countP_append, List.countP_append, List.countP_cons, List.countP_cons, hnone, htied]
  simp only [hself, decide_false, not_false_iff, and_self, decide_true, Bool.false_eq_true,
    if_false, if_true]
  omega

/-- **Where a row can stand.** -/
theorem Listing.position (h : WeakOrder before) (hl : Listing before rows l) {i : ℕ} {x : α}
    (hx : l[i]? = some x) :
    ahead before rows x ≤ i ∧ i < ahead before rows x + tied before rows x := by
  obtain ⟨hi, hxi⟩ := List.getElem?_eq_some_iff.mp hx
  obtain ⟨l₁, l₂, rfl, rfl⟩ : ∃ l₁ l₂, l = l₁ ++ x :: l₂ ∧ l₁.length = i :=
    ⟨l.take i, l.drop (i + 1), by simp [← hxi], List.length_take_of_le hi.le⟩
  have hcount := count_of_sorted h hl.sorted
  unfold ahead tied at hcount ⊢
  rwa [hl.perm.countP_eq, hl.perm.countP_eq] at hcount

/-! ### Pages that add up -/

/-- Where the groups are aligned, a row is on the page of the rows before it. -/
theorem Listing.page_of_getElem? (h : WeakOrder before) (hl : Listing before rows l)
    (ha : Aligned before p rows) (hp : 0 < p) {i : ℕ} {x : α} (hx : l[i]? = some x) :
    ahead before rows x / p = i / p := by
  obtain ⟨hle, hlt⟩ := hl.position h hx
  refine le_antisymm (Nat.div_le_div_right hle) ?_
  by_contra hcon
  -- the end of a page lies between the two positions
  refine ha x (hl.perm.mem_iff.mp (List.mem_of_getElem? hx)) (i / p) ⟨?_, ?_⟩
  · rw [not_le] at hcon
    exact (Nat.div_lt_iff_lt_mul hp).mp hcon
  · exact lt_of_le_of_lt (Nat.div_mul_le_self i p) hlt

/-- **Where the groups are aligned, a page holds the same rows in every arrangement.** -/
theorem Listing.page_eq_filter (h : WeakOrder before) (hl : Listing before rows l)
    (ha : Aligned before p rows) (hp : 0 < p) (k : ℕ) :
    page p k l = l.filter fun x => ahead before rows x / p = k := by
  have hpage := fun {i x} => hl.page_of_getElem? (i := i) (x := x) h ha hp
  have hsplit : l = l.take (k * p) ++ (page p k l ++ l.drop (k * p + p)) := by
    rw [page, ← List.drop_drop, List.take_append_drop, List.take_append_drop]
  conv_rhs => rw [hsplit, List.filter_append, List.filter_append]
  have hfront : (l.take (k * p)).filter (fun x => ahead before rows x / p = k) = [] := by
    rw [List.filter_eq_nil_iff]
    intro x hx
    obtain ⟨i, hi⟩ := List.mem_iff_getElem?.mp hx
    rw [List.getElem?_take] at hi
    split at hi
    · next hlt =>
      rw [decide_eq_true_eq, hpage hi]
      exact (Nat.div_lt_of_lt_mul (by rwa [Nat.mul_comm] at hlt)).ne
    · cases hi
  have hbehind : (l.drop (k * p + p)).filter (fun x => ahead before rows x / p = k) = [] := by
    rw [List.filter_eq_nil_iff]
    intro x hx
    obtain ⟨i, hi⟩ := List.mem_iff_getElem?.mp hx
    rw [List.getElem?_drop] at hi
    rw [decide_eq_true_eq, hpage hi]
    have : k + 1 ≤ (k * p + p + i) / p := by
      rw [Nat.le_div_iff_mul_le hp, Nat.add_mul, Nat.one_mul]
      omega
    omega
  have hmid : (page p k l).filter (fun x => ahead before rows x / p = k) = page p k l := by
    rw [List.filter_eq_self]
    intro x hx
    obtain ⟨j, hj⟩ := List.mem_iff_getElem?.mp hx
    have hjp : j < p := by
      obtain ⟨hlt, -⟩ := List.getElem?_eq_some_iff.mp hj
      exact hlt.trans_le (List.length_take_le p _)
    rw [getElem?_page l hjp] at hj
    rw [decide_eq_true_eq, hpage hj, Nat.mul_comm, Nat.mul_add_div hp, Nat.div_eq_of_lt hjp,
      Nat.add_zero]
  rw [hfront, hbehind, hmid, List.append_nil, List.nil_append]

/-- The groups by a number, put together. -/
theorem flatMap_filter_perm (f : α → ℕ) (n : ℕ) (rows : List α) :
    ((List.range n).flatMap fun k => rows.filter fun x => f x = k).Perm
      (rows.filter fun x => f x < n) := by
  induction n with
  | zero => simp
  | succ n ih =>
    rw [List.range_succ, List.flatMap_append]
    refine (ih.append_right _).trans ?_
    have hlow : (rows.filter fun x => f x < n + 1).filter (fun x => f x < n) =
        rows.filter fun x => f x < n := by
      rw [List.filter_filter]
      refine List.filter_congr fun x _ => ?_
      rw [← Bool.decide_and, decide_eq_decide]
      omega
    have hhigh : (rows.filter fun x => f x < n + 1).filter (fun x => ! decide (f x < n)) =
        rows.filter fun x => f x = n := by
      rw [List.filter_filter]
      refine List.filter_congr fun x _ => ?_
      rw [← decide_not, ← Bool.decide_and, decide_eq_decide]
      omega
    have hperm := List.filter_append_perm (fun x => decide (f x < n))
      (rows.filter fun x => f x < n + 1)
    rw [hlow, hhigh] at hperm
    simpa using hperm

theorem perm_of_aligned (h : WeakOrder before) (ha : Aligned before p rows) (hp : 0 < p)
    {l : ℕ → List α} (hl : ∀ k, Listing before rows (l k)) :
    ((List.range (pages p rows.length)).flatMap fun k => page p k (l k)).Perm rows := by
  have hpages : ∀ k, (page p k (l k)).Perm (rows.filter fun x => ahead before rows x / p = k) := by
    intro k
    rw [(hl k).page_eq_filter h ha hp]
    exact (hl k).perm.filter _
  refine (List.Perm.flatMap_left _ fun k _ => hpages k).trans ?_
  refine (flatMap_filter_perm (fun x => ahead before rows x / p) _ rows).trans ?_
  rw [List.filter_eq_self.mpr]
  intro x hx
  -- a row is not ahead of itself
  have hlt : ahead before rows x < rows.length := by
    refine List.countP_lt_length_iff.mpr ⟨x, hx, ?_⟩
    simpa using h.irrefl x
  rw [decide_eq_true_eq, lt_pages_iff hp]
  exact lt_of_le_of_lt (Nat.div_mul_le_self _ p) hlt

/-! ### A row on two pages -/

/-- Sorting gives an arrangement. -/
theorem listing_mergeSort (h : WeakOrder before) (rows : List α) :
    Listing before rows (rows.mergeSort fun a b => ! decide (before b a)) := by
  refine ⟨List.mergeSort_perm _ _, ?_⟩
  have : (rows.mergeSort fun a b => ! decide (before b a)).Pairwise
      fun a b => (! decide (before b a)) = true := List.pairwise_mergeSort
    (fun a b c hab hbc => by
      simp only [Bool.not_eq_true', decide_eq_false_iff_not] at hab hbc ⊢
      intro hca
      rcases h.split c b a hca with hcb | hba
      · exact hbc hcb
      · exact hab hba)
    (fun a b => by
      by_cases hab : before a b
      · simp [h.asymm a b hab]
      · simp [hab]) rows
  simpa using this

/-- The rows in some order. -/
theorem exists_sorted (h : WeakOrder before) (rows : List α) :
    ∃ l : List α, l.Perm rows ∧ l.Pairwise fun a b => ¬ before b a :=
  ⟨_, (listing_mergeSort h rows).perm, (listing_mergeSort h rows).sorted⟩

/-- The rows before a row, its group and the rows after it are all the rows. -/
theorem split_perm (h : WeakOrder before) (rows : List α) (x : α) :
    (rows.filter (fun y => before y x) ++ (rows.filter (fun y => ¬ before y x ∧ ¬ before x y) ++
      rows.filter fun y => before x y)).Perm rows := by
  have hgroup : (rows.filter fun y => ! decide (before y x)).filter
      (fun y => ! decide (before x y)) =
      rows.filter fun y => ¬ before y x ∧ ¬ before x y := by
    rw [List.filter_filter]
    exact List.filter_congr fun y _ => by simp [and_comm]
  have hafter : (rows.filter fun y => ! decide (before y x)).filter
      (fun y => ! ! decide (before x y)) =
      rows.filter fun y => before x y := by
    rw [List.filter_filter]
    refine List.filter_congr fun y _ => ?_
    by_cases hxy : before x y
    · simp [hxy, h.asymm x y hxy]
    · simp [hxy]
  have hrest := List.filter_append_perm (fun y => ! decide (before x y))
    (rows.filter fun y => ! decide (before y x))
  rw [hgroup, hafter] at hrest
  exact (hrest.append_left _).trans (List.filter_append_perm (fun y => decide (before y x)) rows)

/-- **The group of a row can come in any order.** -/
theorem exists_listing (h : WeakOrder before) (rows : List α) (x : α) :
    ∃ front behind : List α, front.length = ahead before rows x ∧
      ∀ g : List α, g.Perm (rows.filter fun y => ¬ before y x ∧ ¬ before x y) →
        Listing before rows (front ++ (g ++ behind)) := by
  obtain ⟨front, hfrontPerm, hfront⟩ := exists_sorted h (rows.filter fun y => before y x)
  obtain ⟨behind, hbehindPerm, hbehind⟩ := exists_sorted h (rows.filter fun y => before x y)
  refine ⟨front, behind, ?_, fun g hg => ⟨?_, ?_⟩⟩
  · rw [hfrontPerm.length_eq, ahead, List.countP_eq_length_filter]
  · exact (hfrontPerm.append (hg.append hbehindPerm)).trans (split_perm h rows x)
  have hmemFront : ∀ a ∈ front, before a x := fun a ha => by
    simpa using (List.mem_filter.mp (hfrontPerm.mem_iff.mp ha)).2
  have hmemGroup : ∀ a ∈ g, ¬ before a x ∧ ¬ before x a := fun a ha => by
    simpa using (List.mem_filter.mp (hg.mem_iff.mp ha)).2
  have hmemBehind : ∀ a ∈ behind, before x a := fun a ha => by
    simpa using (List.mem_filter.mp (hbehindPerm.mem_iff.mp ha)).2
  rw [List.pairwise_append, List.pairwise_append]
  refine ⟨hfront, ⟨?_, hbehind, ?_⟩, ?_⟩
  · -- two rows of the group are tied with one another
    refine List.Pairwise.imp_of_mem (R := fun _ _ => True) (fun {a b} ha hb _ hba => ?_)
      (List.pairwise_of_forall fun _ _ => trivial)
    rcases h.split b x a hba with hbx | hxa
    · exact (hmemGroup b hb).1 hbx
    · exact (hmemGroup a ha).2 hxa
  · intro a ha b hb hba
    exact (hmemGroup a ha).2 (h.trans (hmemBehind b hb) hba)
  · intro a ha b hb hba
    rcases List.mem_append.mp hb with hb | hb
    · exact (hmemGroup b hb).1 (h.trans hba (hmemFront a ha))
    · exact h.asymm b a hba (h.trans (hmemFront a ha) (hmemBehind b hb))

/-- **A row can be the first or the last of its group.** -/
theorem exists_first_last (h : WeakOrder before) {x : α} (hx : x ∈ rows) :
    (∃ l, Listing before rows l ∧ l[ahead before rows x]? = some x) ∧
      ∃ l, Listing before rows l ∧ l[ahead before rows x + tied before rows x - 1]? = some x := by
  classical
  obtain ⟨front, behind, hlength, hlisting⟩ := exists_listing h rows x
  have hmem : x ∈ rows.filter fun y => ¬ before y x ∧ ¬ before x y :=
    List.mem_filter.mpr ⟨hx, by simpa using h.irrefl x⟩
  have hperm := (List.perm_cons_erase hmem).symm
  have htied : ((rows.filter fun y => ¬ before y x ∧ ¬ before x y).erase x).length + 1 =
      tied before rows x := by
    rw [tied, List.countP_eq_length_filter, ← hperm.length_eq, List.length_cons]
  refine ⟨⟨_, hlisting _ hperm, ?_⟩, _,
    hlisting _ ((List.perm_append_singleton x _).trans hperm), ?_⟩
  · rw [List.getElem?_append_right hlength.le, hlength, Nat.sub_self]
    rfl
  · rw [List.getElem?_append_right (by omega), hlength, List.append_assoc,
      List.getElem?_append_right (by omega)]
    have hzero : ahead before rows x + tied before rows x - 1 - ahead before rows x -
        ((rows.filter fun y => ¬ before y x ∧ ¬ before x y).erase x).length = 0 := by omega
    rw [hzero]
    rfl

/-- **When pages add up to the rows.** Each page is cut from an arrangement of its own; the
pages hold every row exactly once, whatever the arrangements, if and only if no group of
tied rows has the end of a page in its middle. -/
theorem partition_iff (h : WeakOrder before) (hrows : rows.Nodup) (hp : 0 < p) :
    (∀ l : ℕ → List α, (∀ k, Listing before rows (l k)) →
      ((List.range (pages p rows.length)).flatMap fun k => page p k (l k)).Perm rows) ↔
      Aligned before p rows := by
  classical
  refine ⟨fun hall x hx k ⟨hlow, hhigh⟩ => ?_, fun ha l hl => perm_of_aligned h ha hp hl⟩
  obtain ⟨⟨first, hfirst, hatFirst⟩, last, hlast, hatLast⟩ := exists_first_last h hx
  -- the row is on the page of its first position, and on the page of its last one
  have hi : ahead before rows x / p < (ahead before rows x + tied before rows x - 1) / p := by
    refine lt_of_lt_of_le ((Nat.div_lt_iff_lt_mul hp).mpr hlow) ?_
    exact (Nat.le_div_iff_mul_le hp).mpr (by omega)
  have hlt : (ahead before rows x + tied before rows x - 1) / p < pages p rows.length := by
    rw [lt_pages_iff hp]
    obtain ⟨hbound, -⟩ := List.getElem?_eq_some_iff.mp hatLast
    rw [hlast.perm.length_eq] at hbound
    exact lt_of_le_of_lt (Nat.div_mul_le_self _ p) hbound
  have hperm := hall
    (fun j => if j = ahead before rows x / p then first else last)
    fun j => by split <;> assumption
  have hnodup := (hperm.nodup_iff).mpr hrows
  rw [List.nodup_flatMap] at hnodup
  have hdisjoint := List.pairwise_iff_getElem.mp hnodup.2 (ahead before rows x / p) _
    (by simpa using hi.trans hlt) (by simpa using hlt) hi
  refine hdisjoint (a := x) ?_ ?_
  · simpa using mem_page_of_getElem? hp hatFirst
  · simpa [hi.ne'] using mem_page_of_getElem? hp hatLast

end Listing

end Paging
