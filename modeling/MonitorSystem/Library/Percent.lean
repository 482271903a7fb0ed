import Mathlib.Data.List.Basic
import Mathlib.Data.List.TakeWhile

/-!
# Percent-encoded texts

A text of bytes is written with a set of bytes that stand for themselves: every other byte is a
percent sign with two hexadecimal digits, and in a query a space may be a plus sign. Where neither
the percent sign nor the plus sign stands for itself, what is written is read back
(`Percent.unescape_escape`), and a byte that is neither kept nor used by the encoding itself does
not occur in it (`Percent.notMem_escape`).

So texts that are written this way can be put between separators. A query is a list of pairs,
each a key and a value behind an equals sign, between ampersands; reading it gives the pairs
again, in their order (`Percent.readQuery_queryText`).
-/

namespace Percent

/-! ### Hexadecimal digits -/

/-- The digit of a number below sixteen. -/
def hexDigit (n : ℕ) : UInt8 := if n < 10 then .ofNat (48 + n) else .ofNat (55 + n)

/-- The number of a digit, whose letter may have either case. -/
def hexValue (b : UInt8) : Option ℕ :=
  if 48 ≤ b ∧ b ≤ 57 then some (b.toNat - 48)
  else if 65 ≤ b ∧ b ≤ 70 then some (b.toNat - 55)
  else if 97 ≤ b ∧ b ≤ 102 then some (b.toNat - 87)
  else none

theorem hexValue_hexDigit {n : ℕ} (h : n < 16) : hexValue (hexDigit n) = some n := by
  have hall : ∀ n < 16, hexValue (hexDigit n) = some n := by decide
  exact hall n h

/-! ### Encoding -/

section Escape

variable (kept : UInt8 → Bool) (plus : Bool)

/-- A byte that stands for itself, a space that is a plus sign, or the number of a byte. -/
def escapeByte (b : UInt8) : List UInt8 :=
  if kept b then [b]
  else if plus && b == 32 then [43]
  else [37, hexDigit (b.toNat / 16), hexDigit (b.toNat % 16)]

/-- A text, byte by byte. -/
def escape (s : List UInt8) : List UInt8 := s.flatMap (escapeByte kept plus)

/-- Reading a text: a percent sign without two digits behind it is an error. -/
def unescape : List UInt8 → Option (List UInt8)
  | [] => some []
  | b :: rest =>
    if b = 37 then
      match rest with
      | hi :: lo :: rest => do
        let hi ← hexValue hi
        let lo ← hexValue lo
        let read ← unescape rest
        some (.ofNat (hi * 16 + lo) :: read)
      | _ => none
    else (unescape rest).map ((if plus && b == 43 then 32 else b) :: ·)

/-- The signs of the encoding do not stand for themselves. -/
structure Escapes : Prop where
  percent : kept 37 = false
  plus : plus = true → kept 43 = false

variable {kept plus}

@[simp] theorem escape_nil : escape kept plus [] = [] := rfl

@[simp] theorem escape_cons (b : UInt8) (s : List UInt8) :
    escape kept plus (b :: s) = escapeByte kept plus b ++ escape kept plus s := rfl

theorem unescape_cons_of_ne {b : UInt8} (h : b ≠ 37) (rest : List UInt8) :
    unescape plus (b :: rest) =
      (unescape plus rest).map ((if plus && b == 43 then 32 else b) :: ·) := by
  rw [unescape.eq_def]
  exact if_neg h

theorem unescape_escapeByte_append (h : Escapes kept plus) (b : UInt8) (rest : List UInt8) :
    unescape plus (escapeByte kept plus b ++ rest) = (unescape plus rest).map (b :: ·) := by
  rw [escapeByte]
  split_ifs with hkept hspace
  · have hne : b ≠ 37 := by
      rintro rfl
      rw [h.percent] at hkept
      cases hkept
    have hplus : (plus && b == 43) = false := by
      rw [Bool.and_eq_false_iff]
      rcases plus with _ | _
      · exact Or.inl rfl
      · refine Or.inr (beq_eq_false_iff_ne.mpr ?_)
        rintro rfl
        rw [h.plus rfl] at hkept
        cases hkept
    rw [List.singleton_append, unescape_cons_of_ne hne, hplus]
    rfl
  · obtain ⟨rfl, hb⟩ := Bool.and_eq_true_iff.mp hspace
    obtain rfl : b = 32 := by simpa using hb
    exact unescape_cons_of_ne (by decide) rest
  · have hlt : b.toNat < 256 := b.toNat_lt
    rw [List.cons_append, List.cons_append, List.cons_append, List.nil_append, unescape,
      if_pos rfl]
    show (hexValue _).bind _ = _
    rw [hexValue_hexDigit (by omega), Option.bind_some]
    show (hexValue _).bind _ = _
    rw [hexValue_hexDigit (Nat.mod_lt _ (by decide)), Option.bind_some,
      Nat.div_add_mod', UInt8.ofNat_toNat]
    rcases unescape plus rest with _ | read <;> rfl

theorem unescape_escape_append (h : Escapes kept plus) (s rest : List UInt8) :
    unescape plus (escape kept plus s ++ rest) = (unescape plus rest).map (s ++ ·) := by
  induction s with
  | nil => exact Option.map_id'.symm
  | cons b s ih =>
    rw [escape_cons, List.append_assoc, unescape_escapeByte_append h, ih, Option.map_map]
    rfl

/-- **A written text is read back.** -/
theorem unescape_escape (h : Escapes kept plus) (s : List UInt8) :
    unescape plus (escape kept plus s) = some s := by
  have hread := unescape_escape_append h s []
  rwa [List.append_nil, unescape, Option.map_some, List.append_nil] at hread

/-- A text without the signs of the encoding is read as it is. -/
theorem unescape_append_of_plain {s : List UInt8} (hpercent : 37 ∉ s) (hplus : 43 ∉ s)
    (rest : List UInt8) : unescape plus (s ++ rest) = (unescape plus rest).map (s ++ ·) := by
  induction s with
  | nil => exact Option.map_id'.symm
  | cons b s ih =>
    have hb : b ≠ 37 := fun he => hpercent (he ▸ List.mem_cons_self)
    have hspace : (plus && b == 43) = false := by
      rw [Bool.and_eq_false_iff]
      exact Or.inr (beq_eq_false_iff_ne.mpr fun he => hplus (he ▸ List.mem_cons_self))
    rw [List.cons_append, unescape_cons_of_ne hb, hspace,
      ih (fun hc => hpercent (List.mem_cons_of_mem _ hc))
        (fun hc => hplus (List.mem_cons_of_mem _ hc)), Option.map_map]
    rfl

/-- A byte of a written text stands for itself or is one of those that the encoding uses. -/
theorem mem_escapeByte {b c : UInt8} (h : c ∈ escapeByte kept plus b) :
    kept c = true ∨ c = 43 ∨ c = 37 ∨ (hexValue c).isSome := by
  have hdigit : ∀ n < 16, (hexValue (hexDigit n)).isSome := by
    intro n hn
    rw [hexValue_hexDigit hn]
    rfl
  have hlt : b.toNat < 256 := b.toNat_lt
  rw [escapeByte] at h
  split_ifs at h with hkept hspace
  · obtain rfl := List.mem_singleton.mp h
    exact Or.inl hkept
  · exact Or.inr (Or.inl (List.mem_singleton.mp h))
  · simp only [List.mem_cons, List.not_mem_nil, or_false] at h
    rcases h with rfl | rfl | rfl
    · exact Or.inr (Or.inr (Or.inl rfl))
    · exact Or.inr (Or.inr (Or.inr (hdigit _ (by omega))))
    · exact Or.inr (Or.inr (Or.inr (hdigit _ (by omega))))

/-- The encoding makes no use of a byte. -/
def Unused (c : UInt8) : Prop := c ≠ 43 ∧ c ≠ 37 ∧ hexValue c = none

instance (c : UInt8) : Decidable (Unused c) :=
  inferInstanceAs (Decidable (c ≠ 43 ∧ c ≠ 37 ∧ hexValue c = none))

/-- **A byte that is neither kept nor used does not occur.** -/
theorem notMem_escape {c : UInt8} (hkept : kept c = false) (hunused : Unused c)
    (s : List UInt8) : c ∉ escape kept plus s := by
  intro hc
  obtain ⟨b, -, hb⟩ := List.mem_flatMap.mp hc
  rcases mem_escapeByte hb with h | h | h | h
  · rw [hkept] at h
    cases h
  · exact hunused.1 h
  · exact hunused.2.1 h
  · rw [hunused.2.2] at h
    cases h

end Escape

/-! ### Queries -/

section Query

/-- What stands before the first occurrence of a byte, and what stands behind it. -/
def cut (c : UInt8) (s : List UInt8) : List UInt8 × List UInt8 :=
  (s.takeWhile (· ≠ c), (s.dropWhile (· ≠ c)).tail)

theorem cut_append {c : UInt8} {s : List UInt8} (h : c ∉ s) (t : List UInt8) :
    cut c (s ++ c :: t) = (s, t) := by
  have hall : ∀ b ∈ s, decide (b ≠ c) = true := by
    intro b hb
    exact decide_eq_true fun he => h (he ▸ hb)
  have htake : (s ++ c :: t).takeWhile (· ≠ c) = s := by
    rw [List.takeWhile_append_of_pos hall, List.takeWhile_cons_of_neg (by simp), List.append_nil]
  have hdrop : (s ++ c :: t).dropWhile (· ≠ c) = c :: t := by
    rw [List.dropWhile_append_of_pos hall, List.dropWhile_cons_of_neg (by simp)]
  rw [cut, htake, hdrop, List.tail_cons]

/-- Where the byte does not occur, everything stands before it. -/
theorem cut_eq_of_notMem {c : UInt8} {s : List UInt8} (h : c ∉ s) : cut c s = (s, []) := by
  have hall : ∀ b ∈ s, decide (b ≠ c) = true := by
    intro b hb
    exact decide_eq_true fun he => h (he ▸ hb)
  rw [cut, List.takeWhile_eq_self_iff.mpr hall, List.dropWhile_eq_nil_iff.mpr hall,
    List.tail_nil]

variable (kept : UInt8 → Bool)

/-- A key and its value. -/
def pairText (p : List UInt8 × List UInt8) : List UInt8 :=
  escape kept true p.1 ++ 61 :: escape kept true p.2

/-- A list of pairs, between ampersands. -/
def queryText (ps : List (List UInt8 × List UInt8)) : List UInt8 :=
  [38].intercalate (ps.map (pairText kept))

/-- Reading a pair. There is none in an empty piece, and none is read in a piece with a semicolon
or with a wrong escape. -/
def readPair (s : List UInt8) : Option (List UInt8 × List UInt8) :=
  if 59 ∈ s ∨ s = [] then none
  else do
    let key ← unescape true (cut 61 s).1
    let value ← unescape true (cut 61 s).2
    some (key, value)

/-- Reading a query: a piece that cannot be read is passed over. -/
def readQuery (s : List UInt8) : List (List UInt8 × List UInt8) :=
  (s.splitOn 38).filterMap readPair

/-- The signs of a query do not stand for themselves. -/
structure QueryEscapes : Prop extends Escapes kept true where
  ampersand : kept 38 = false
  semicolon : kept 59 = false
  equals : kept 61 = false

variable {kept}

theorem notMem_pairText {c : UInt8} (hkept : kept c = false)
    (hunused : Unused c) (hc : c ≠ 61) (p : List UInt8 × List UInt8) :
    c ∉ pairText kept p := by
  intro hmem
  rcases List.mem_append.mp hmem with hmem | hmem
  · exact notMem_escape hkept hunused _ hmem
  · rcases List.mem_cons.mp hmem with he | hmem
    · exact hc he
    · exact notMem_escape hkept hunused _ hmem

theorem pairText_ne_nil (p : List UInt8 × List UInt8) : pairText kept p ≠ [] :=
  List.append_ne_nil_of_right_ne_nil _ (List.cons_ne_nil _ _)

/-- Only the empty list of pairs makes an empty query. -/
theorem queryText_eq_nil_iff {ps : List (List UInt8 × List UInt8)} :
    queryText kept ps = [] ↔ ps = [] := by
  constructor
  · intro h
    rcases ps with _ | ⟨p, _ | ⟨q, ps⟩⟩
    · rfl
    · rw [queryText, List.map_singleton, List.intercalate_singleton] at h
      exact absurd h (pairText_ne_nil p)
    · rw [queryText, List.map_cons, List.map_cons, List.intercalate_cons_cons] at h
      exact absurd (List.append_eq_nil_iff.mp (List.append_eq_nil_iff.mp h).1).2 (by simp)
  · rintro rfl
    rfl

theorem readPair_pairText (h : QueryEscapes kept) (p : List UInt8 × List UInt8) :
    readPair (pairText kept p) = some p := by
  have hread : ¬(59 ∈ pairText kept p ∨ pairText kept p = []) := by
    rintro (hmem | hnil)
    · exact notMem_pairText h.semicolon (by decide) (by decide) p hmem
    · exact pairText_ne_nil p hnil
  have hcut : cut 61 (pairText kept p) = (escape kept true p.1, escape kept true p.2) :=
    cut_append (notMem_escape h.equals (by decide) _) _
  rw [readPair, if_neg hread, hcut]
  show (unescape true (escape kept true p.1)).bind _ = _
  rw [unescape_escape h.toEscapes, Option.bind_some]
  show (unescape true (escape kept true p.2)).bind _ = _
  rw [unescape_escape h.toEscapes, Option.bind_some]

/-- **A written query is read back**, the pairs in their order. -/
theorem readQuery_queryText (h : QueryEscapes kept) (ps : List (List UInt8 × List UInt8)) :
    readQuery (queryText kept ps) = ps := by
  rcases ps with _ | ⟨p, ps⟩
  · rfl
  · have hsplit : (queryText kept (p :: ps)).splitOn 38 = (p :: ps).map (pairText kept) := by
      refine List.splitOn_intercalate 38 ?_ (by simp)
      intro piece hpiece
      obtain ⟨q, -, rfl⟩ := List.mem_map.mp hpiece
      exact notMem_pairText h.ampersand (by decide) (by decide) q
    rw [readQuery, hsplit, List.filterMap_map]
    exact (List.filterMap_congr fun q _ => readPair_pairText h q).trans List.filterMap_some

/-- A byte that is neither kept nor used, and no separator, does not occur in a query. -/
theorem notMem_queryText {c : UInt8} (hkept : kept c = false) (hunused : Unused c)
    (hequals : c ≠ 61) (hampersand : c ≠ 38) (ps : List (List UInt8 × List UInt8)) :
    c ∉ queryText kept ps := by
  induction ps with
  | nil => exact List.not_mem_nil
  | cons p ps ih =>
    have hp := notMem_pairText hkept hunused hequals p
    rcases ps with _ | ⟨q, ps⟩
    · simpa [queryText] using hp
    · rw [queryText, List.map_cons, List.map_cons, List.intercalate_cons_cons]
      simp only [List.mem_append, List.mem_singleton, not_or]
      exact ⟨⟨hp, hampersand⟩, ih⟩

end Query

end Percent
