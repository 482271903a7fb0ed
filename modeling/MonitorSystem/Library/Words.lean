import Mathlib.Data.List.Basic
import Mathlib.Data.List.TakeWhile

/-!
# The pieces and the words of a text

Two ways in which a stream is read. `Words.pieces d` are the pieces that a loop of `getline`
returns, with a delimiter behind each; the last piece may do without, so that a text with a
delimiter at its end has no empty piece behind it. What is joined with delimiters is read back but
for an empty piece at the end (`Words.getD_pieces_intercalate`). `Words.words blank` are the words between
blanks, which are read one after the other: blanks are skipped, and a word goes on to the next
blank (`Words.next`).

How many blanks there are between two words, or before the first one, cannot be seen in the words.
`Words.words_eq_cons_iff` says that reading a word and then the rest is reading the words.
-/

namespace Words

variable {α : Type*}

/-! ### Joined words -/

section Joined

variable {c d : α} {w : List α} {ws : List (List α)}

/-- A letter that is in none of the words is not in what is joined of them. -/
theorem notMem_intercalate (hc : c ≠ d) (h : ∀ w ∈ ws, c ∉ w) : c ∉ [d].intercalate ws := by
  induction ws with
  | nil => exact List.not_mem_nil
  | cons w ws ih =>
    have hw : c ∉ w := h w (by simp)
    rcases ws.eq_nil_or_concat with rfl | ⟨_, _, hne⟩
    · simpa using hw
    · have hrest := ih fun v hv => h v (by simp [hv])
      rw [List.intercalate_cons_of_ne_nil (by simp [hne])]
      simp [hw, hc, hrest]

/-- The letters of the words are there. -/
theorem mem_intercalate (hw : w ∈ ws) (hc : c ∈ w) : c ∈ [d].intercalate ws := by
  induction ws with
  | nil => cases hw
  | cons v ws ih =>
    rcases ws.eq_nil_or_concat with rfl | ⟨_, _, hne⟩
    · rw [List.mem_singleton.mp hw] at hc
      simpa using hc
    · rw [List.intercalate_cons_of_ne_nil (by simp [hne])]
      rcases List.mem_cons.mp hw with rfl | hw
      · simp [hc]
      · simp [ih hw]

end Joined

/-! ### Pieces -/

section Pieces

variable [DecidableEq α] {d : α} {w s : List α} {ws : List (List α)}

/-- What a loop of `getline` returns. -/
def pieces (d : α) (s : List α) : List (List α) :=
  if (s.splitOn d).getLast? = some [] then (s.splitOn d).dropLast else s.splitOn d

@[simp] theorem pieces_nil : pieces d [] = [] := by
  simp [pieces]

/-- **A piece with its delimiter** is read first. -/
theorem pieces_append_cons (hw : d ∉ w) (s : List α) :
    pieces d (w ++ d :: s) = w :: pieces d s := by
  have hsplit : (w ++ d :: s).splitOn d = w :: s.splitOn d :=
    List.splitOn_append_cons_self_of_not_mem hw s
  have hne := List.splitOn_ne_nil d s
  rw [pieces, pieces, hsplit, List.getLast?_cons_of_ne_nil hne]
  split
  · exact List.dropLast_cons_of_ne_nil hne
  · rfl

/-- **Pieces that are all ended are read back.** -/
theorem pieces_flatMap (h : ∀ w ∈ ws, d ∉ w) : pieces d (ws.flatMap (· ++ [d])) = ws := by
  induction ws with
  | nil => simp
  | cons w ws ih =>
    rw [List.flatMap_cons, List.append_assoc, List.singleton_append,
      pieces_append_cons (h w (by simp)), ih fun v hv => h v (by simp [hv])]

/-- **Pieces with delimiters between them are read back**, unless the last one is empty. -/
theorem pieces_intercalate (h : ∀ w ∈ ws, d ∉ w) (hlast : ws.getLast? ≠ some []) :
    pieces d ([d].intercalate ws) = ws := by
  rcases eq_or_ne ws [] with rfl | hne
  · rfl
  · rw [pieces, List.splitOn_intercalate d h hne, if_neg hlast]

/-- **The pieces by their number**: a piece that is not there is as good as an empty one. -/
theorem getD_pieces_intercalate (h : ∀ w ∈ ws, d ∉ w) (hne : ws ≠ []) (i : ℕ) :
    (pieces d ([d].intercalate ws)).getD i [] = ws.getD i [] := by
  rw [pieces, List.splitOn_intercalate d h hne]
  split
  · next hlast =>
    obtain ⟨front, rfl⟩ : ∃ front, ws = front ++ [[]] :=
      ⟨ws.dropLast, (List.dropLast_append_getLast? [] hlast).symm⟩
    rw [List.dropLast_concat]
    simp only [List.getD_eq_getElem?_getD, List.getElem?_append]
    split
    · rfl
    · next hi =>
      rw [List.getElem?_eq_none (not_lt.mp hi)]
      rcases (i - front.length) with _ | k <;> rfl
  · rfl

/-- The letters of a piece are letters of the text. -/
theorem mem_of_mem_pieces {c : α} (h : w ∈ pieces d s) (hc : c ∈ w) : c ∈ s := by
  have hmem : w ∈ s.splitOn d := by
    rw [pieces] at h
    split at h
    · exact List.dropLast_subset _ h
    · exact h
  have hjoin : [d].intercalate (s.splitOn d) = s := List.intercalate_splitOn d
  exact hjoin ▸ mem_intercalate hmem hc

/-- No piece holds the delimiter. -/
theorem notMem_of_mem_pieces (h : w ∈ pieces d s) : d ∉ w := by
  have hmem : w ∈ s.splitOn d := by
    rw [pieces] at h
    split at h
    · exact List.dropLast_subset _ h
    · exact h
  clear h
  induction s generalizing w with
  | nil =>
    obtain rfl : w = [] := by simpa using hmem
    simp
  | cons c s ih =>
    rw [List.splitOn_cons_eq_if_modifyHead] at hmem
    obtain ⟨v, vs, hv⟩ := List.exists_cons_of_ne_nil (List.splitOn_ne_nil d s)
    rw [hv] at ih hmem
    split at hmem
    · rcases List.mem_cons.mp hmem with rfl | hmem
      · simp
      · exact ih hmem
    · next hc =>
      rcases List.mem_cons.mp hmem with rfl | hmem
      · have hnot := ih (w := v) (by simp)
        have hne : d ≠ c := fun heq => hc (by simp [heq])
        simp [hne, hnot]
      · exact ih (List.mem_cons_of_mem _ hmem)

end Pieces

/-! ### Words -/

section Blanks

variable {blank : α → Bool} {w s : List α} {ws : List (List α)}

/-- The next word, after blanks, and what is left behind it. -/
def next (blank : α → Bool) (s : List α) : List α × List α :=
  ((s.dropWhile blank).takeWhile fun c => !blank c, (s.dropWhile blank).dropWhile fun c => !blank c)

/-- **The words of a text.** -/
def words (blank : α → Bool) (s : List α) : List (List α) :=
  (s.splitOnP blank).filter fun w => !w.isEmpty

@[simp] theorem words_nil : words blank [] = [] := by
  simp [words]

theorem words_cons_blank {c : α} (hc : blank c = true) : words blank (c :: s) = words blank s := by
  have hnil : ∀ x ∈ ([] : List α), blank x = false := by simp
  have hsplit : (c :: s).splitOnP blank = [] :: s.splitOnP blank :=
    List.splitOnP_append_cons_of_forall_mem hnil c hc s
  rw [words, hsplit]
  rfl

/-- Blanks in front cannot be seen. -/
theorem words_dropWhile (s : List α) : words blank (s.dropWhile blank) = words blank s := by
  induction s with
  | nil => rfl
  | cons c s ih =>
    by_cases hc : blank c = true
    · rw [List.dropWhile_cons_of_pos hc, ih, words_cons_blank hc]
    · rw [List.dropWhile_cons_of_neg hc]

/-- A word with a blank behind it, or with nothing. -/
theorem words_append (hw : ∀ c ∈ w, blank c = false) (hne : w ≠ [])
    (hs : ∀ c ∈ s.head?, blank c = true) : words blank (w ++ s) = w :: words blank s := by
  have hkept : ∀ l : List (List α), (w :: l).filter (fun v => !v.isEmpty) =
      w :: l.filter fun v => !v.isEmpty := fun l => List.filter_cons_of_pos (by simpa using hne)
  cases s with
  | nil =>
    rw [List.append_nil, words, List.splitOnP_eq_singleton hw, words_nil,
      hkept, List.filter_nil]
  | cons c s =>
    have hc : blank c = true := hs c rfl
    rw [words, List.splitOnP_append_cons_of_forall_mem hw c hc, hkept,
      words_cons_blank hc]
    rfl

/-- What is left behind a word begins with a blank. -/
theorem head_next_snd (s : List α) : ∀ c ∈ (next blank s).2.head?, blank c = true := by
  intro c hc
  have h := List.head?_dropWhile_not (fun c => !blank c) (s.dropWhile blank)
  rw [next] at hc
  rw [show ((s.dropWhile blank).dropWhile fun c => !blank c).head? = some c from hc] at h
  simpa using h

theorem next_fst_nonblank (s : List α) : ∀ c ∈ (next blank s).1, blank c = false := by
  intro c hc
  simpa using List.mem_takeWhile_imp hc

/-- **A word is read, and then the others.** -/
theorem words_eq_cons_iff :
    words blank s = w :: ws ↔
      (next blank s).1 = w ∧ w ≠ [] ∧ words blank (next blank s).2 = ws := by
  have hparts : (next blank s).1 ++ (next blank s).2 = s.dropWhile blank :=
    List.takeWhile_append_dropWhile
  rcases eq_or_ne (next blank s).1 [] with hnil | hne
  · -- there is nothing but blanks
    have hrest : s.dropWhile blank = [] := by
      by_contra hcon
      obtain ⟨c, cs, hcs⟩ := List.exists_cons_of_ne_nil hcon
      rw [hnil, List.nil_append] at hparts
      have hc : blank c = true := head_next_snd s c (by rw [hparts, hcs]; rfl)
      have hhead := List.head?_dropWhile_not blank s
      rw [hcs] at hhead
      simp [hc] at hhead
    rw [← words_dropWhile, hrest, hnil, words_nil]
    refine iff_of_false (by simp) ?_
    rintro ⟨rfl, hcon, -⟩
    exact hcon rfl
  · rw [← words_dropWhile, ← hparts,
      words_append (next_fst_nonblank s) hne (head_next_snd s), List.cons.injEq]
    constructor
    · rintro ⟨rfl, rfl⟩
      exact ⟨rfl, hne, rfl⟩
    · rintro ⟨rfl, -, rfl⟩
      exact ⟨rfl, rfl⟩

end Blanks

end Words
