import Mathlib.Data.List.Basic

/-!
# Paths of trimmed segments

A path is a list of words with a delimiter between each two of them, `[d].intercalate xs`.
The words are *trimmed*: they neither begin nor end with a letter of a given kind, the
space, and the delimiter is not a space. Nothing else is asked of a word, so it may hold
the delimiter, and then a path can be read in more than one way.

A delimiter inside a word separates two words only if no space stands beside it:
`Segments.Cut` is such a place. Whether a path has one reading is a matter of the cuts of
its words. A word that has none is one segment in every reading; the last word may be cut
before an empty word, and the first one after an empty word, if a reading has no empty
words there.

* `Segments.intercalate_inj` – the words after the first ones, with the last one required
  not to be empty;
* `Segments.pair_unique_iff` and `Segments.path_unique_iff` – the paths of two required
  words, and of two required words, any words and a required last one.
-/

namespace Segments

variable {α : Type*} {sp : α → Bool} {d : α} {a b x y z : List α} {xs ys : List (List α)}

/-! ### Trimmed words and their cuts -/

/-- A word without a space at either end. -/
structure Trimmed (sp : α → Bool) (x : List α) : Prop where
  head : ∀ c ∈ x.head?, sp c = false
  last : ∀ c ∈ x.getLast?, sp c = false

instance decidableTrimmed : Decidable (Trimmed sp x) :=
  decidable_of_iff ((∀ c ∈ x.head?, sp c = false) ∧ ∀ c ∈ x.getLast?, sp c = false)
    ⟨fun h => ⟨h.1, h.2⟩, fun h => ⟨h.1, h.2⟩⟩

@[simp] theorem trimmed_nil : Trimmed sp ([] : List α) := ⟨by simp, by simp⟩

/-- A delimiter between two trimmed words makes one trimmed word of them. -/
theorem Trimmed.cons (hd : sp d = false) (ha : Trimmed sp a) (hb : Trimmed sp b) :
    Trimmed sp (a ++ d :: b) := by
  refine ⟨fun c hc => ?_, fun c hc => ?_⟩
  · cases a with
    | nil =>
      obtain rfl : d = c := by simpa using hc
      exact hd
    | cons e a => exact ha.head c (by simpa using hc)
  · cases b with
    | nil =>
      obtain rfl : d = c := by simpa using hc
      exact hd
    | cons e b => exact hb.last c (by simpa [List.getLast?_append, List.getLast?_cons] using hc)

/-- The part of a trimmed word behind a place where a trimmed word begins. -/
theorem Trimmed.of_append_right (h : Trimmed sp (a ++ d :: b))
    (hb : ∀ c ∈ b.head?, sp c = false) : Trimmed sp b := by
  refine ⟨hb, fun c hc => h.last c ?_⟩
  cases b with
  | nil => simp at hc
  | cons e b => simpa [List.getLast?_append, List.getLast?_cons] using hc

/-- **A place where a word can be cut**: a delimiter between two trimmed words. -/
structure Cut (sp : α → Bool) (d : α) (x y z : List α) : Prop where
  eq : x = y ++ d :: z
  left : Trimmed sp y
  right : Trimmed sp z

/-- The word cannot be cut. -/
def Solid (sp : α → Bool) (d : α) (x : List α) : Prop := ∀ y z, ¬ Cut sp d x y z

theorem solid_of_notMem (h : d ∉ x) : Solid sp d x := fun y z hcut => h (by simp [hcut.eq])

/-! ### Comparing two readings -/

theorem intercalate_cons (x : List α) (hxs : xs ≠ []) :
    [d].intercalate (x :: xs) = x ++ d :: [d].intercalate xs := by
  rw [List.intercalate_cons_of_ne_nil hxs, List.append_assoc]
  rfl

/-- A path of trimmed words begins with no space. -/
theorem head_intercalate (hd : sp d = false) (hxs : ∀ x ∈ xs, Trimmed sp x) :
    ∀ c ∈ ([d].intercalate xs).head?, sp c = false := by
  intro c hc
  cases xs with
  | nil => simp [List.intercalate] at hc
  | cons x xs =>
    rcases eq_or_ne xs [] with rfl | hne
    · exact (hxs x (by simp)).head c (by simpa using hc)
    rw [intercalate_cons x hne] at hc
    cases x with
    | nil =>
      obtain rfl : d = c := by simpa using hc
      exact hd
    | cons e x => exact (hxs (e :: x) (by simp)).head c (by simpa using hc)

/-- **Two first words**: they are the same, or the shorter one ends at a cut of the longer
one. -/
theorem first_word (hd : sp d = false) (hx : Trimmed sp x) (hy : Trimmed sp y)
    (hxs : ∀ w ∈ xs, Trimmed sp w) (hys : ∀ w ∈ ys, Trimmed sp w)
    (h : x ++ d :: [d].intercalate xs = y ++ d :: [d].intercalate ys) :
    (x = y ∧ [d].intercalate xs = [d].intercalate ys) ∨
      (∃ m, Cut sp d x y m ∧ [d].intercalate ys = m ++ d :: [d].intercalate xs) ∨
      ∃ m, Cut sp d y x m ∧ [d].intercalate xs = m ++ d :: [d].intercalate ys := by
  have hhead {m r : List α} {ws : List (List α)} (hws : ∀ w ∈ ws, Trimmed sp w)
      (hm : [d].intercalate ws = m ++ d :: r) : ∀ c ∈ m.head?, sp c = false := by
    intro c hc
    refine head_intercalate hd hws c ?_
    rw [hm]
    cases m with
    | nil => simp at hc
    | cons e m => simpa using hc
  rcases List.append_eq_append_iff.mp h with ⟨m, rfl, hm⟩ | ⟨m, rfl, hm⟩
  · cases m with
    | nil => exact .inl ⟨by simp, by simpa using hm⟩
    | cons e m =>
      obtain ⟨rfl, hrest⟩ : d = e ∧ [d].intercalate xs = m ++ d :: [d].intercalate ys := by
        simpa using hm
      exact .inr (.inr ⟨m, ⟨rfl, hx, hy.of_append_right (hhead hxs hrest)⟩, hrest⟩)
  · cases m with
    | nil => exact .inl ⟨by simp, by simpa using hm.symm⟩
    | cons e m =>
      obtain ⟨rfl, hrest⟩ : d = e ∧ [d].intercalate ys = m ++ d :: [d].intercalate xs := by
        simpa using hm
      exact .inr (.inl ⟨m, ⟨rfl, hy, hx.of_append_right (hhead hys hrest)⟩, hrest⟩)

/-! ### The words after the first ones -/

/-- Words that a reading cannot divide: only the last one may be cut, and only at its end. -/
def Firm (sp : α → Bool) (d : α) : List (List α) → Prop
  | [] => True
  | [x] => ∀ y z, Cut sp d x y z → z = []
  | x :: w :: xs => Solid sp d x ∧ Firm sp d (w :: xs)

/-- A list of words with a last word that is not empty. -/
def Closed (xs : List (List α)) : Prop := ∀ x ∈ xs.getLast?, x ≠ []

theorem Closed.of_cons (h : Closed (x :: xs)) : Closed xs := by
  intro w hw
  refine h w ?_
  cases xs with
  | nil => simp at hw
  | cons v xs => simpa [List.getLast?_cons] using hw

theorem Closed.cons (h : Closed xs) (hne : xs ≠ []) : Closed (x :: xs) := by
  intro w hw
  obtain ⟨v, xs, rfl⟩ := List.exists_cons_of_ne_nil hne
  exact h w (by simpa [List.getLast?_cons] using hw)

theorem intercalate_ne_nil (h : Closed xs) (hne : xs ≠ []) : [d].intercalate xs ≠ [] := by
  obtain ⟨x, xs, rfl⟩ := List.exists_cons_of_ne_nil hne
  rcases eq_or_ne xs [] with rfl | hxs
  · simpa using h x (by simp)
  · rw [intercalate_cons x hxs]
    simp

/-- **A firm path has no reading with more words.** -/
theorem not_more_words (hd : sp d = false) (hfirm : Firm sp d xs) (hne : xs ≠ [])
    (hxs : ∀ w ∈ xs, Trimmed sp w) (hys : ∀ w ∈ ys, Trimmed sp w) (hclosed : Closed ys)
    (hlt : xs.length < ys.length) : [d].intercalate xs ≠ [d].intercalate ys := by
  induction xs generalizing ys with
  | nil => exact absurd rfl hne
  | cons x xs ih =>
    intro h
    obtain ⟨y, ys, rfl⟩ := List.exists_cons_of_length_pos (Nat.zero_lt_of_lt hlt)
    have hysne : ys ≠ [] := by
      rintro rfl
      simp at hlt
    obtain ⟨hy, hys⟩ := List.forall_mem_cons.mp hys
    obtain ⟨hx, hxs⟩ := List.forall_mem_cons.mp hxs
    rw [intercalate_cons y hysne] at h
    cases xs with
    | nil =>
      -- the last word would have a cut before a word that is not empty
      rw [List.intercalate_singleton] at h
      have hright : Trimmed sp ([d].intercalate ys) :=
        (h ▸ hx : Trimmed sp (y ++ d :: [d].intercalate ys)).of_append_right
          (head_intercalate hd hys)
      exact intercalate_ne_nil hclosed.of_cons hysne (hfirm _ _ ⟨h, hy, hright⟩)
    | cons v xs =>
      rw [intercalate_cons x (by simp)] at h
      rcases first_word hd hx hy hxs hys h with ⟨-, h⟩ | ⟨m, hcut, -⟩ | ⟨m, hcut, h⟩
      · exact ih hfirm.2 (by simp) hxs hys hclosed.of_cons (by simpa using hlt) h
      · exact hfirm.1 _ _ hcut
      · -- what is left of the longer word is a word in front of the others
        rw [← intercalate_cons m hysne] at h
        refine ih hfirm.2 (by simp) hxs ?_ (hclosed.of_cons.cons hysne) ?_ h
        · exact List.forall_mem_cons.mpr ⟨hcut.right, hys⟩
        · simp at hlt ⊢
          omega

/-- **A firm path is read in one way**, with words of this number. -/
theorem intercalate_inj (hd : sp d = false) (hfirm : Firm sp d xs)
    (hxs : ∀ w ∈ xs, Trimmed sp w) (hys : ∀ w ∈ ys, Trimmed sp w) (hclosed : Closed ys)
    (hlength : xs.length = ys.length) (h : [d].intercalate xs = [d].intercalate ys) :
    xs = ys := by
  induction xs generalizing ys with
  | nil => exact (List.length_eq_zero_iff.mp hlength.symm).symm
  | cons x xs ih =>
    obtain ⟨y, ys, rfl⟩ := List.exists_cons_of_length_pos
      (hlength ▸ Nat.zero_lt_succ _ : 0 < ys.length)
    obtain ⟨hy, htail⟩ := List.forall_mem_cons.mp hys
    obtain ⟨hx, hxs⟩ := List.forall_mem_cons.mp hxs
    cases xs with
    | nil =>
      obtain rfl : ys = [] := List.length_eq_zero_iff.mp (by simpa using hlength.symm)
      simpa using h
    | cons v xs =>
      have hysne : ys ≠ [] := by
        rintro rfl
        simp at hlength
      rw [intercalate_cons x (by simp), intercalate_cons y hysne] at h
      rcases first_word hd hx hy hxs htail h with ⟨rfl, hrest⟩ | ⟨m, hcut, -⟩ | ⟨m, hcut, h⟩
      · rw [ih hfirm.2 hxs htail hclosed.of_cons (by simpa using hlength) hrest]
      · exact absurd hcut (hfirm.1 _ _)
      · rw [← intercalate_cons m hysne] at h
        refine absurd h (not_more_words hd hfirm.2 (by simp) hxs ?_
          (hclosed.of_cons.cons hysne) ?_)
        · exact List.forall_mem_cons.mpr ⟨hcut.right, htail⟩
        · simp at hlength ⊢
          omega

/-- **A path that is not firm can be read differently**, from the word before it on. -/
theorem exists_of_not_firm (hd : sp d = false) (hb : Trimmed sp b) (hne : xs ≠ [])
    (hxs : ∀ w ∈ xs, Trimmed sp w) (hclosed : Closed xs) (hfirm : ¬ Firm sp d xs) :
    ∃ b' ys, Trimmed sp b' ∧ (∀ w ∈ ys, Trimmed sp w) ∧ (b ≠ [] → b' ≠ []) ∧
      ys.length = xs.length ∧ Closed ys ∧
      [d].intercalate (b' :: ys) = [d].intercalate (b :: xs) ∧ (b', ys) ≠ (b, xs) := by
  induction xs generalizing b with
  | nil => exact absurd rfl hne
  | cons x xs ih =>
    obtain ⟨hx, hxs⟩ := List.forall_mem_cons.mp hxs
    cases xs with
    | nil =>
      obtain ⟨y, z, hcut, hz⟩ : ∃ y z, Cut sp d x y z ∧ z ≠ [] := by
        by_contra hcon
        exact hfirm fun y z hcut => by_contra fun hz => hcon ⟨y, z, hcut, hz⟩
      refine ⟨b ++ d :: y, [z], hb.cons hd hcut.left, by simpa using hcut.right, by simp, rfl,
        by simpa [Closed] using hz, ?_, by simp⟩
      simp [List.intercalate_cons_cons, hcut.eq]
    | cons w xs =>
      by_cases hsolid : Solid sp d x
      · -- the word itself stays, and the path behind it is read differently
        obtain ⟨x', ys, hx', hys, -, hlength, hclosed', heq, hne'⟩ :=
          ih hx (by simp) hxs hclosed.of_cons fun h => hfirm ⟨hsolid, h⟩
        have hysne : ys ≠ [] := by
          rintro rfl
          simp at hlength
        refine ⟨b, x' :: ys, hb, List.forall_mem_cons.mpr ⟨hx', hys⟩, id, by simpa using hlength,
          hclosed'.cons hysne, ?_, ?_⟩
        · rw [intercalate_cons b (List.cons_ne_nil x' ys),
            intercalate_cons b (List.cons_ne_nil x (w :: xs)), heq]
        · simpa using hne'
      · obtain ⟨y, z, hcut⟩ : ∃ y z, Cut sp d x y z := by simpa [Solid] using hsolid
        refine ⟨b ++ d :: y, z :: w :: xs, hb.cons hd hcut.left,
          List.forall_mem_cons.mpr ⟨hcut.right, hxs⟩, by simp, rfl,
          hclosed.of_cons.cons (by simp), ?_, by simp⟩
        simp [List.intercalate_cons_cons, hcut.eq]

/-! ### Paths whose first words are required -/

/-- **The first word of a reading**: if it is firm except at its beginning and the rest is
firm, it is the first word of every reading. -/
theorem first_of_firm (hd : sp d = false) (ha : Trimmed sp a) (ha' : Trimmed sp b)
    (hfirst : ∀ y z, Cut sp d a y z → y = []) (hne : b ≠ []) (hfirm : Firm sp d xs)
    (hxsne : xs ≠ []) (hxs : ∀ w ∈ xs, Trimmed sp w) (hys : ∀ w ∈ ys, Trimmed sp w)
    (hclosed : Closed ys) (hlength : ys.length = xs.length)
    (h : [d].intercalate (a :: xs) = [d].intercalate (b :: ys)) :
    a = b ∧ xs = ys := by
  have hysne : ys ≠ [] := by
    rintro rfl
    exact hxsne (List.length_eq_zero_iff.mp hlength.symm)
  rw [intercalate_cons a hxsne, intercalate_cons b hysne] at h
  rcases first_word hd ha ha' hxs hys h with ⟨hab, h⟩ | ⟨m, hcut, -⟩ | ⟨m, hcut, h⟩
  · exact ⟨hab, intercalate_inj hd hfirm hxs hys hclosed hlength.symm h⟩
  · exact absurd (hfirst _ _ hcut) hne
  · rw [← intercalate_cons m hysne] at h
    refine absurd h (not_more_words hd hfirm hxsne hxs ?_ (hclosed.cons hysne) (by simp [hlength]))
    exact List.forall_mem_cons.mpr ⟨hcut.right, hys⟩

/-- A word that is one delimiter, between a first word and a firm path: it stands alone in
every reading whose second word is not empty. -/
theorem delimiter_word (hd : sp d = false) (ha : Trimmed sp a) (hfirm : Firm sp d xs)
    (hxsne : xs ≠ []) (hxs : ∀ w ∈ xs, Trimmed sp w) {a' b' : List α}
    (hfirst : ∀ y z, Cut sp d a y z → y = []) (ha' : Trimmed sp a') (hb' : Trimmed sp b')
    (hane' : a' ≠ []) (hbne' : b' ≠ []) (hys : ∀ w ∈ ys, Trimmed sp w) (hclosed : Closed ys)
    (hlength : ys.length = xs.length)
    (h : [d].intercalate (a :: [d] :: xs) = [d].intercalate (a' :: b' :: ys)) :
    a = a' ∧ [d] = b' ∧ xs = ys := by
  have hysne : ys ≠ [] := by
    rintro rfl
    exact hxsne (List.length_eq_zero_iff.mp hlength.symm)
  have hdelim : Trimmed sp [d] := trimmed_nil.cons hd trimmed_nil
  have hcuts : ∀ y z, Cut sp d [d] y z → y = [] ∧ z = [] := by
    intro y z hcut
    have := hcut.eq
    cases y <;> simp_all
  -- no reading puts more words in the place of the firm path
  have hmore : ∀ ws : List (List α), ws ≠ [] → (∀ w ∈ ws, Trimmed sp w) →
      [d].intercalate xs ≠ [d].intercalate (ws ++ ys) := by
    intro ws hws hwst
    refine not_more_words hd hfirm hxsne hxs ?_ ?_ ?_
    · simpa [or_imp, forall_and] using ⟨hwst, hys⟩
    · intro w hw
      rw [List.getLast?_append_of_ne_nil _ hysne] at hw
      exact hclosed w hw
    · have := List.length_pos_of_ne_nil hws
      simp only [List.length_append]
      omega
  have hxs' : ∀ w ∈ [d] :: xs, Trimmed sp w := List.forall_mem_cons.mpr ⟨hdelim, hxs⟩
  have hys' : ∀ w ∈ b' :: ys, Trimmed sp w := List.forall_mem_cons.mpr ⟨hb', hys⟩
  rw [intercalate_cons a (by simp), intercalate_cons a' (by simp)] at h
  rcases first_word hd ha ha' hxs' hys' h with ⟨haa, hrest⟩ | ⟨m, hcut, -⟩ | ⟨m, hcut, hrest⟩
  · rw [intercalate_cons _ hxsne, intercalate_cons _ hysne] at hrest
    rcases first_word hd hdelim hb' hxs hys hrest with ⟨hbb, hrest⟩ | ⟨m, hcut, -⟩ |
      ⟨m, hcut, hrest⟩
    · exact ⟨haa, hbb, intercalate_inj hd hfirm hxs hys hclosed hlength.symm hrest⟩
    · exact absurd (hcuts _ _ hcut).1 hbne'
    · rw [← intercalate_cons m hysne] at hrest
      exact absurd hrest (hmore [m] (by simp) (by simpa using hcut.right))
  · exact absurd (hfirst _ _ hcut) hane'
  · rw [intercalate_cons _ hxsne] at hrest
    rcases first_word hd hdelim hcut.right hxs hys' hrest with ⟨-, hrest⟩ | ⟨m', hcut', hrest⟩ |
      ⟨m', hcut', hrest⟩
    · exact absurd hrest (hmore [b'] (by simp) (by simpa using hb'))
    · obtain ⟨rfl, rfl⟩ := hcuts _ _ hcut'
      -- the second word would begin with the delimiter that follows
      rw [intercalate_cons _ hysne] at hrest
      rcases first_word hd hb' trimmed_nil hys hxs hrest with ⟨hnil, -⟩ | ⟨m, hcut, hrest⟩ |
        ⟨m, hcut, -⟩
      · exact absurd hnil hbne'
      · rw [← intercalate_cons m hysne] at hrest
        exact absurd hrest (hmore [m] (by simp) (by simpa using hcut.right))
      · exact absurd hcut.eq (by simp)
    · rw [← intercalate_cons m' (by simp)] at hrest
      exact absurd hrest (hmore [m', b'] (by simp) (by simpa using ⟨hcut'.right, hb'⟩))

/-- **Which paths of two required words have one reading.** -/
theorem pair_unique_iff (hd : sp d = false) (ha : Trimmed sp a) (hb : Trimmed sp b)
    (hane : a ≠ []) (hbne : b ≠ []) :
    (∀ a' b', Trimmed sp a' → Trimmed sp b' → a' ≠ [] → b' ≠ [] →
      [d].intercalate [a', b'] = [d].intercalate [a, b] → a' = a ∧ b' = b) ↔
      (∀ y z, Cut sp d a y z → y = []) ∧ Firm sp d [b] := by
  constructor
  · intro h
    refine ⟨fun y z hcut => by_contra fun hy => ?_, by_contra fun hfirm => ?_⟩
    · have hya := (h y (z ++ d :: b) hcut.left (hcut.right.cons hd hb) hy (by simp)
        (by simp [List.intercalate_cons_cons, hcut.eq])).1
      have := hcut.eq
      rw [← hya] at this
      simp at this
    · obtain ⟨a', ys, ha', hys, hne, hlength, hclosed, heq, hdiff⟩ := exists_of_not_firm hd ha
        (by simp) (by simpa using hb) (by simpa [Closed] using hbne) hfirm
      obtain ⟨b', rfl⟩ := List.length_eq_one_iff.mp hlength
      obtain ⟨rfl, rfl⟩ := h a' b' ha' (hys b' (by simp)) (hne hane) (hclosed b' (by simp)) heq
      exact hdiff rfl
  · rintro ⟨hfirst, hfirm⟩ a' b' ha' hb' hane' hbne' h
    obtain ⟨rfl, hbb'⟩ := first_of_firm hd ha ha' hfirst hane' hfirm (by simp)
      (by simpa using hb) (by simpa using hb') (by simpa [Closed] using hbne')
      (show [b'].length = [b].length from rfl) h.symm
    exact ⟨rfl, by simpa using hbb'.symm⟩

/-- **Which paths of two required words and more words have one reading**, the last word
being required as well. -/
theorem path_unique_iff (hd : sp d = false) (ha : Trimmed sp a) (hb : Trimmed sp b)
    (hane : a ≠ []) (hbne : b ≠ []) (hxsne : xs ≠ []) (hxs : ∀ w ∈ xs, Trimmed sp w)
    (hclosed : Closed xs) :
    (∀ a' b' ys, Trimmed sp a' → Trimmed sp b' → (∀ w ∈ ys, Trimmed sp w) → a' ≠ [] → b' ≠ [] →
      ys.length = xs.length → Closed ys →
      [d].intercalate (a' :: b' :: ys) = [d].intercalate (a :: b :: xs) →
      a' = a ∧ b' = b ∧ ys = xs) ↔
      (∀ y z, Cut sp d a y z → y = []) ∧ (∀ y z, Cut sp d b y z → y = [] ∧ z = []) ∧
        Firm sp d xs := by
  obtain ⟨x, xs, rfl⟩ := List.exists_cons_of_ne_nil hxsne
  constructor
  · intro h
    refine ⟨fun y z hcut => by_contra fun hy => ?_, fun y z hcut => ?_,
      by_contra fun hfirm => ?_⟩
    · have hya := (h y (z ++ d :: b) (x :: xs) hcut.left (hcut.right.cons hd hb) hxs hy (by simp)
        rfl hclosed (by simp [List.intercalate_cons_cons, hcut.eq])).1
      have := hcut.eq
      rw [← hya] at this
      simp at this
    · have hz : z = [] := by
        by_contra hz
        have hta := (h (a ++ d :: y) z (x :: xs) (ha.cons hd hcut.left) hcut.right hxs (by simp)
          hz rfl hclosed (by simp [List.intercalate_cons_cons, hcut.eq])).1
        simp at hta
      subst hz
      refine ⟨by_contra fun hy => ?_, rfl⟩
      -- the delimiter at the end of the second word begins the third one
      obtain ⟨hx, hxs'⟩ := List.forall_mem_cons.mp hxs
      have hclosed' : Closed ((d :: x) :: xs) := by
        cases xs with
        | nil => simp [Closed]
        | cons w xs => exact hclosed.of_cons.cons (by simp)
      have hyb := (h a y ((d :: x) :: xs) ha hcut.left
        (List.forall_mem_cons.mpr ⟨trimmed_nil.cons hd hx, hxs'⟩) hane hy rfl hclosed' (by
          cases xs <;> simp [List.intercalate_cons_cons, hcut.eq])).2.1
      have := hcut.eq
      rw [← hyb] at this
      simp at this
    · obtain ⟨b', ys, hb', hys, hne, hlength, hclosed', heq, hdiff⟩ := exists_of_not_firm hd hb
        (by simp) hxs hclosed hfirm
      obtain ⟨-, rfl, rfl⟩ := h a b' ys ha hb' hys hane (hne hbne) hlength hclosed' (by
        rw [intercalate_cons a (List.cons_ne_nil _ _), intercalate_cons a (List.cons_ne_nil _ _),
          heq])
      exact hdiff rfl
  · rintro ⟨hfirst, hsecond, hfirm⟩ a' b' ys ha' hb' hys hane' hbne' hlength hclosed' h
    by_cases hsolid : Solid sp d b
    · have hall : Firm sp d (b :: x :: xs) := ⟨hsolid, hfirm⟩
      have hlength' : (b' :: ys).length = (b :: x :: xs).length := by simpa using hlength
      have hysne : ys ≠ [] := by
        rintro rfl
        simp at hlength
      obtain ⟨rfl, hrest⟩ := first_of_firm hd ha ha' hfirst hane' hall (by simp)
        (List.forall_mem_cons.mpr ⟨hb, hxs⟩) (List.forall_mem_cons.mpr ⟨hb', hys⟩)
        (hclosed'.cons hysne) hlength' h.symm
      simpa using hrest.symm
    · obtain ⟨y, z, hcut⟩ : ∃ y z, Cut sp d b y z := by simpa [Solid] using hsolid
      obtain ⟨rfl, rfl⟩ := hsecond y z hcut
      obtain rfl : b = [d] := hcut.eq
      obtain ⟨rfl, rfl, rfl⟩ := delimiter_word hd ha hfirm hxsne hxs hfirst ha' hb' hane' hbne'
        hys hclosed' hlength h.symm
      exact ⟨rfl, rfl, rfl⟩

end Segments
