import MonitorSystem.Agent.MemoryManager

/-!
# What a pattern matches

`Pattern.matchString` looks for a match behind every beginning of a text, as the search of a
regular expression does. Here it is compared with the words of the pattern: there is a match
exactly if one of these words is somewhere in the text (`Pattern.matchString_iff`).

A pattern without an anchor is therefore found in a text if it is found in a part of it
(`Pattern.matchString_of_part`). Conversely a match in a text is one in the text without the
spaces around it, if no word of the pattern begins or ends with a space
(`Pattern.matchString_trimSpace`).
-/

namespace MonitorSystem

namespace Pattern

variable {p : Pattern} {a b : Pattern} {q : Char → Bool} {s t : String} {l w rest : List Char}

/-! ### The words of a pattern -/

/-- The word is one of the pattern. -/
def Matches : Pattern → List Char → Prop
  | empty, w => w = []
  | one p, w => ∃ c, p c ∧ w = [c]
  | many p, w => ∀ c ∈ w, p c
  | seq a b, w => ∃ u v, a.Matches u ∧ b.Matches v ∧ w = u ++ v
  | alt a b, w => a.Matches w ∨ b.Matches w

theorem mem_manyRests_iff : rest ∈ manyRests q l ↔ ∃ w, (∀ c ∈ w, q c) ∧ l = w ++ rest := by
  induction l with
  | nil =>
    rw [manyRests, List.mem_singleton]
    constructor
    · rintro rfl
      exact ⟨[], by simp, rfl⟩
    · rintro ⟨w, -, hw⟩
      exact (List.append_eq_nil_iff.mp hw.symm).2
  | cons c l ih =>
    rw [manyRests, List.mem_cons]
    constructor
    · rintro (rfl | h)
      · exact ⟨[], by simp, rfl⟩
      · split at h
        · next hc =>
          obtain ⟨w, hw, rfl⟩ := ih.mp h
          exact ⟨c :: w, List.forall_mem_cons.mpr ⟨hc, hw⟩, rfl⟩
        · cases h
    · rintro ⟨w, hw, heq⟩
      cases w with
      | nil => exact .inl heq.symm
      | cons d w =>
        obtain ⟨rfl, rfl⟩ := List.cons.inj heq
        obtain ⟨hc, hw⟩ := List.forall_mem_cons.mp hw
        rw [if_pos hc]
        exact .inr (ih.mpr ⟨w, hw, rfl⟩)

/-- **What is left of a text behind a match** is what is left behind a word of the pattern. -/
theorem mem_rests_iff : rest ∈ p.rests l ↔ ∃ w, p.Matches w ∧ l = w ++ rest := by
  induction p generalizing l rest with
  | empty => simp [rests, Matches, eq_comm]
  | one q =>
    cases l with
    | nil => simp [rests, Matches]
    | cons c l =>
      simp only [rests, Matches]
      constructor
      · intro h
        split at h
        · next hc =>
          obtain rfl := List.mem_singleton.mp h
          exact ⟨[c], ⟨c, hc, rfl⟩, rfl⟩
        · cases h
      · rintro ⟨_, ⟨d, hd, rfl⟩, heq⟩
        obtain ⟨rfl, rfl⟩ := List.cons.inj heq
        rw [if_pos hd]
        exact List.mem_singleton_self _
  | many q => exact mem_manyRests_iff
  | seq a b iha ihb =>
    simp only [rests, Matches, List.mem_flatMap, iha, ihb]
    constructor
    · rintro ⟨_, ⟨u, hu, rfl⟩, v, hv, rfl⟩
      exact ⟨u ++ v, ⟨u, v, hu, hv, rfl⟩, (List.append_assoc _ _ _).symm⟩
    · rintro ⟨_, ⟨u, v, hu, hv, rfl⟩, rfl⟩
      exact ⟨v ++ rest, ⟨u, hu, List.append_assoc _ _ _⟩, v, hv, rfl⟩
  | alt a b iha ihb =>
    simp only [rests, Matches, List.mem_append, iha, ihb]
    constructor
    · rintro (⟨w, hw, rfl⟩ | ⟨w, hw, rfl⟩)
      · exact ⟨w, .inl hw, rfl⟩
      · exact ⟨w, .inr hw, rfl⟩
    · rintro ⟨w, hw | hw, rfl⟩
      · exact .inl ⟨w, hw, rfl⟩
      · exact .inr ⟨w, hw, rfl⟩

/-- **A match is a word of the pattern somewhere in the text.** -/
theorem matchString_iff : p.matchString s ↔ ∃ w, w <:+: s.toList ∧ p.Matches w := by
  simp only [matchString, List.any_eq_true, List.mem_tails, Bool.not_eq_true',
    List.isEmpty_eq_false_iff_exists_mem, mem_rests_iff]
  constructor
  · rintro ⟨_, ⟨before, hs⟩, after, w, hw, rfl⟩
    exact ⟨w, ⟨before, after, by rw [← hs, List.append_assoc]⟩, hw⟩
  · rintro ⟨w, ⟨before, after, hs⟩, hw⟩
    exact ⟨w ++ after, ⟨before, by rw [← hs, List.append_assoc]⟩, after, w, hw, rfl⟩

/-- A match in a part of a text is one in the text. -/
theorem matchString_of_part (h : s.toList <:+: t.toList) (hs : p.matchString s) :
    p.matchString t := by
  obtain ⟨w, hw, hmatch⟩ := matchString_iff.mp hs
  exact matchString_iff.mpr ⟨w, hw.trans h, hmatch⟩

/-! ### Where the words begin and end -/

/-- The words of the pattern begin with a character of the class. -/
def Begins (q : Char → Bool) (p : Pattern) : Prop :=
  ∀ w, p.Matches w → ∃ c ∈ w.head?, q c

/-- They end with one. -/
def Ends (q : Char → Bool) (p : Pattern) : Prop :=
  ∀ w, p.Matches w → ∃ c ∈ w.getLast?, q c

theorem begins_one {r : Char → Bool} (h : ∀ c, r c → q c) : Begins q (one r) := by
  rintro _ ⟨c, hc, rfl⟩
  exact ⟨c, rfl, h c hc⟩

theorem ends_one {r : Char → Bool} (h : ∀ c, r c → q c) : Ends q (one r) := by
  rintro _ ⟨c, hc, rfl⟩
  exact ⟨c, rfl, h c hc⟩

theorem Begins.seq (h : Begins q a) : Begins q (seq a b) := by
  rintro _ ⟨u, v, hu, -, rfl⟩
  obtain ⟨c, hc, hq⟩ := h u hu
  exact ⟨c, by rw [List.head?_append, Option.mem_def.mp hc]; rfl, hq⟩

theorem Ends.seq (h : Ends q b) : Ends q (seq a b) := by
  rintro _ ⟨u, v, -, hv, rfl⟩
  obtain ⟨c, hc, hq⟩ := h v hv
  exact ⟨c, by rw [List.getLast?_append, Option.mem_def.mp hc]; rfl, hq⟩

theorem Begins.alt (ha : Begins q a) (hb : Begins q b) : Begins q (alt a b) := by
  rintro w (hw | hw)
  · exact ha w hw
  · exact hb w hw

theorem Ends.alt (ha : Ends q a) (hb : Ends q b) : Ends q (alt a b) := by
  rintro w (hw | hw)
  · exact ha w hw
  · exact hb w hw

theorem ends_plus {r : Char → Bool} (h : ∀ c, r c → q c) : Ends q (plus r) := by
  rintro _ ⟨_, v, ⟨c, hc, rfl⟩, hv, rfl⟩
  have hall : ∀ d ∈ c :: v, r d := List.forall_mem_cons.mpr ⟨hc, hv⟩
  exact ⟨_, List.getLast?_eq_some_getLast (by simp), h _ (hall _ (List.getLast_mem (by simp)))⟩

/-! ### Words written out -/

/-- A word as it is written. -/
def literal (s : String) : Pattern :=
  s.toList.foldr (fun c rest => seq (one fun x => x = c) rest) empty

/-- One of some words as they are written. -/
def literals (ws : List String) : Pattern :=
  ws.foldr (fun w rest => alt (literal w) rest) (one fun _ => false)

/-- The words of the pattern have characters of the class only, and at least one. -/
def Solid (q : Char → Bool) (p : Pattern) : Prop :=
  ∀ w, p.Matches w → w ≠ [] ∧ ∀ c ∈ w, q c

theorem Solid.begins (h : Solid q p) : Begins q p := by
  intro w hw
  obtain ⟨hne, hall⟩ := h w hw
  exact ⟨_, List.head?_eq_some_head hne, hall _ (List.head_mem hne)⟩

theorem Solid.ends (h : Solid q p) : Ends q p := by
  intro w hw
  obtain ⟨hne, hall⟩ := h w hw
  exact ⟨_, List.getLast?_eq_some_getLast hne, hall _ (List.getLast_mem hne)⟩

/-- The words of a chain of classes, one class for each letter. -/
theorem matches_chain_iff {cls : Char → Char → Bool} {letters : List Char} :
    (letters.foldr (fun c rest => seq (one (cls c)) rest) empty).Matches w ↔
      List.Forall₂ (fun c x => cls c x) letters w := by
  induction letters generalizing w with
  | nil => simp [Matches]
  | cons c letters ih =>
    simp only [List.foldr_cons, Matches, ih, List.forall₂_cons_left_iff]
    constructor
    · rintro ⟨_, v, ⟨x, hx, rfl⟩, hv, rfl⟩
      exact ⟨x, v, hx, hv, rfl⟩
    · rintro ⟨x, v, hx, hv, rfl⟩
      exact ⟨[x], v, ⟨x, hx, rfl⟩, hv, rfl⟩

theorem solid_chain {cls : Char → Char → Bool} {letters : List Char} (hne : letters ≠ [])
    (h : ∀ c ∈ letters, ∀ x, cls c x → q x) :
    Solid q (letters.foldr (fun c rest => seq (one (cls c)) rest) empty) := by
  intro w hw
  rw [matches_chain_iff] at hw
  refine ⟨?_, ?_⟩
  · rintro rfl
    exact hne (List.forall₂_nil_right_iff.mp hw)
  · intro x hx
    obtain ⟨i, hi, rfl⟩ := List.getElem_of_mem hx
    have hi' : i < letters.length := hw.length_eq ▸ hi
    exact h _ (List.getElem_mem hi') _ (hw.get hi' hi)

/-- One of some patterns. -/
theorem solid_alts {f : String → Pattern} {ws : List String} (h : ∀ w ∈ ws, Solid q (f w)) :
    Solid q (ws.foldr (fun w rest => alt (f w) rest) (one fun _ => false)) := by
  induction ws with
  | nil =>
    rintro _ ⟨c, hc, -⟩
    cases hc
  | cons w ws ih =>
    obtain ⟨hw, hws⟩ := List.forall_mem_cons.mp h
    rintro x (hx | hx)
    · exact hw x hx
    · exact ih hws x hx

/-! ### Spaces around a text -/

/-- No space. -/
def nonspace (c : Char) : Bool := !isSpace c

/-- The range of the letters and the digits. -/
theorem nonspace_of_range {c : Char} (h : 0x20 < c.toNat) (h' : c.toNat < 0x85) :
    nonspace c := by
  rw [nonspace, isSpace, Bool.not_eq_true', Bool.or_eq_false_iff, Bool.and_eq_false_iff]
  constructor
  · refine decide_eq_false fun hmem => ?_
    have hout := List.all_eq_true (p := fun d => ¬ (0x20 < d.toNat ∧ d.toNat < 0x85)).mp
      (by decide) c hmem
    exact of_decide_eq_true hout ⟨h, h'⟩
  · refine .inl (decide_eq_false fun hle => ?_)
    have hnat : 0x2000 ≤ c.toNat := hle
    omega

/-- Neither the one case of a letter nor the other is a space. -/
theorem isSpace_foldChar (c : Char) : isSpace (foldChar c) = isSpace c := by
  have hfalse : ∀ {d : Char}, nonspace d → isSpace d = false := fun hd => by
    simpa [nonspace] using hd
  unfold foldChar
  split
  · next h =>
    subst h
    rfl
  · split
    · next h =>
      subst h
      rfl
    · unfold Char.toLower
      split
      · next hupper =>
        have hle : 65 ≤ c.toNat := hupper.1
        have hle' : c.toNat ≤ 90 := hupper.2
        have hlower : (c.val + ('a'.val - 'A'.val)).toNat = c.toNat + 32 := by
          rw [UInt32.toNat_add]
          exact Nat.mod_eq_of_lt (Nat.lt_of_le_of_lt (Nat.add_le_add_right hle' _) (by decide))
        rw [hfalse (nonspace_of_range (c := c) (by omega) (by omega))]
        exact hfalse (nonspace_of_range (hlower ▸ by omega : 0x20 < UInt32.toNat _)
          (hlower ▸ by omega : UInt32.toNat _ < 0x85))
      · rfl

theorem infix_dropWhile (h : w <:+: l) (hw : ∃ c ∈ w.head?, nonspace c) :
    w <:+: l.dropWhile isSpace := by
  obtain ⟨before, after, rfl⟩ := h
  obtain ⟨c, hc, hspace⟩ := hw
  have hstays : (w ++ after).dropWhile isSpace = w ++ after := by
    refine dropWhile_of_head fun d hd => ?_
    rw [List.head?_append, Option.mem_def.mp hc] at hd
    obtain rfl := Option.some.inj hd
    simpa [nonspace] using hspace
  rw [List.append_assoc, List.dropWhile_append]
  split
  · rw [hstays]
    exact List.infix_append [] w after
  · exact ⟨_, after, by rw [List.append_assoc]⟩

theorem trimSpace_part (s : String) : (trimSpace s).toList <:+: s.toList := by
  rw [trimSpace, String.toList_ofList, ← List.reverse_infix, List.reverse_reverse]
  refine (List.dropWhile_suffix _).isInfix.trans ?_
  rw [List.reverse_infix]
  exact (List.dropWhile_suffix _).isInfix

/-- **A search that does not see the spaces around a text.** -/
theorem matchString_trimSpace (hbegins : Begins nonspace p) (hends : Ends nonspace p) :
    p.matchString (trimSpace s) = p.matchString s := by
  refine Bool.eq_iff_iff.mpr ⟨matchString_of_part (trimSpace_part s), fun h => ?_⟩
  obtain ⟨w, hw, hmatch⟩ := matchString_iff.mp h
  refine matchString_iff.mpr ⟨w, ?_, hmatch⟩
  rw [trimSpace, String.toList_ofList, ← List.reverse_infix, List.reverse_reverse]
  refine infix_dropWhile (List.reverse_infix.mpr (infix_dropWhile hw (hbegins w hmatch))) ?_
  rw [List.head?_reverse]
  exact hends w hmatch

/-- A text that is not empty, without a space in it. -/
def isWord (s : String) : Bool := !s.toList.isEmpty && s.toList.all nonspace

theorem isWord_iff : isWord s ↔ s.toList ≠ [] ∧ ∀ c ∈ s.toList, nonspace c := by
  rw [isWord, Bool.and_eq_true, Bool.not_eq_true', List.isEmpty_eq_false_iff, List.all_eq_true]

theorem solid_word (h : isWord s) : Solid nonspace (word s) := by
  obtain ⟨hne, hnonspace⟩ := isWord_iff.mp h
  refine solid_chain hne fun c hc x hx => ?_
  rw [nonspace, ← isSpace_foldChar, of_decide_eq_true hx]
  exact hnonspace c hc

theorem solid_literal (h : isWord s) : Solid nonspace (literal s) := by
  obtain ⟨hne, hnonspace⟩ := isWord_iff.mp h
  refine solid_chain hne fun c hc x hx => ?_
  rw [of_decide_eq_true hx]
  exact hnonspace c hc

theorem solid_words {ws : List String} (h : ws.all isWord) : Solid nonspace (words ws) :=
  solid_alts fun w hw => solid_word (List.all_eq_true.mp h w hw)

theorem solid_literals {ws : List String} (h : ws.all isWord) : Solid nonspace (literals ws) :=
  solid_alts fun w hw => solid_literal (List.all_eq_true.mp h w hw)

end Pattern

end MonitorSystem
