import Mathlib.Data.List.Forall2
import Mathlib.Data.List.TakeWhile
import MonitorSystem.Library.SqlExact

/-!
# The text of a statement

A client that puts values into the text of a statement has to see to it that the server reads them
as the values they are. This file is about the server's side: how a text falls into words, names
in backticks, texts in quotes and punctuation (`SqlText.lex`), character by character as a
machine does it, and which INSERT the parts are (`SqlText.read`).

What the client does about the characters of a text, its escaping, is a parameter. All that is
asked of it is that a server within a quoted text reads what is escaped as what it was
(`SqlText.Escapes`); `SqlText.backslashed`, which puts a backslash before some characters, is of
this kind. Then each item of a list is a word, a name or a quoted text of its own, whatever
characters are in it (`SqlText.Item`), and a whole statement is read as the one it was written
for (`SqlText.read_insert`).
-/

namespace SqlText

open Sql

/-! ### Words, names and texts -/

/-- The parts of a statement. -/
inductive Token where
  | word (w : String)
  | name (w : String)
  | text (s : String)
  | mark (c : Char)
  deriving DecidableEq, Repr

def quote : Char := Char.ofNat 39

def backtick : Char := Char.ofNat 96

def backslash : Char := Char.ofNat 92

def nul : Char := Char.ofNat 0

/-- The characters of keywords, identifiers and numbers. -/
def isWordChar (c : Char) : Bool := c.isAlphanum || c == '_' || c == '.' || c == '-' || c == '+'

def isMark (c : Char) : Bool := c == '(' || c == ')' || c == ',' || c == '='

/-- Where in a statement a server is. The characters of the part that it is in are kept in reverse
order. -/
inductive Mode where
  | between
  | inWord (w : List Char)
  | inName (w : List Char)
  | inText (w : List Char)
  /-- After a backslash in a text. -/
  | escaped (w : List Char)
  /-- After a quote in a text: the text is over, unless there is another one. -/
  | closed (w : List Char)
  deriving DecidableEq, Repr

/-- A character between two parts. -/
def start (c : Char) : Option (List Token × Mode) :=
  if isWordChar c then some ([], .inWord [c])
  else if c = quote then some ([], .inText [])
  else if c = backtick then some ([], .inName [])
  else if isMark c then some ([.mark c], .between)
  else if c = ' ' then some ([], .between)
  else none

/-- What a backslash makes of a character: the escape sequences of texts. -/
def unescape (c : Char) : List Char :=
  if c = '0' then [nul]
  else if c = 'b' then [Char.ofNat 8]
  else if c = 'n' then [Char.ofNat 10]
  else if c = 'r' then [Char.ofNat 13]
  else if c = 't' then [Char.ofNat 9]
  else if c = 'Z' then [Char.ofNat 26]
  else if c = '%' ∨ c = '_' then [backslash, c]
  else [c]

/-- **One character**: the parts that it completes, and where the server is after it. A quote at
the end of a word would make another kind of text of what follows, and is not accepted. -/
def Mode.step : Mode → Char → Option (List Token × Mode)
  | .between, c => start c
  | .inWord w, c =>
    if isWordChar c then some ([], .inWord (c :: w))
    else if c = quote then none
    else (start c).map fun r => (.word (String.ofList w.reverse) :: r.1, r.2)
  | .inName w, c =>
    if c = backtick then some ([.name (String.ofList w.reverse)], .between)
    else some ([], .inName (c :: w))
  | .inText w, c =>
    if c = quote then some ([], .closed w)
    else if c = backslash then some ([], .escaped w)
    else some ([], .inText (c :: w))
  | .escaped w, c => some ([], .inText ((unescape c).reverse ++ w))
  | .closed w, c =>
    if c = quote then some ([], .inText (quote :: w))
    else (start c).map fun r => (.text (String.ofList w.reverse) :: r.1, r.2)

/-- What is completed by the end of the statement. -/
def Mode.finish : Mode → Option (List Token)
  | .between => some []
  | .inWord w => some [.word (String.ofList w.reverse)]
  | .closed w => some [.text (String.ofList w.reverse)]
  | _ => none

/-- The parts that are completed by some characters. -/
def run : Mode → List Char → Option (List Token × Mode)
  | m, [] => some ([], m)
  | m, c :: cs => (m.step c).bind fun r => (run r.2 cs).map fun r' => (r.1 ++ r'.1, r'.2)

/-- **The parts of a statement**, if there are such. -/
def lex (cs : List Char) : Option (List Token) :=
  (run .between cs).bind fun r => r.2.finish.map (r.1 ++ ·)

/-- Characters after others are read from where these have led. -/
theorem run_append {m m' : Mode} {u v : List Char} {ts : List Token}
    (h : run m u = some (ts, m')) :
    run m (u ++ v) = (run m' v).map fun r => (ts ++ r.1, r.2) := by
  induction u generalizing m ts with
  | nil =>
    obtain ⟨rfl, rfl⟩ : [] = ts ∧ m = m' := by simpa [run] using h
    simp
  | cons c u ih =>
    simp only [run, Option.bind_eq_some_iff, Option.map_eq_some_iff] at h
    obtain ⟨⟨ts₁, m₁⟩, hstep, ⟨ts₂, m₂⟩, hrun, heq⟩ := h
    obtain ⟨rfl, rfl⟩ := Prod.mk.inj heq
    simp only [List.cons_append, run, hstep, Option.bind_some, ih hrun, Option.map_map]
    exact congrArg (Option.map · _) (funext fun r => by simp)

/-- Two pieces of a statement that are read one after the other. -/
theorem run_append_eq {m m' m'' : Mode} {u v : List Char} {ts ts' : List Token}
    (hu : run m u = some (ts, m')) (hv : run m' v = some (ts', m'')) :
    run m (u ++ v) = some (ts ++ ts', m'') := by
  rw [run_append hu, hv, Option.map_some]

/-! ### Escaping -/

/-- **An escaping**: within a quoted text, what is escaped is read as what it was, and it is not
the end of a string of C. -/
structure Escapes (escape : List Char → List Char) : Prop where
  reads : ∀ s w, run (.inText w) (escape s) = some ([], .inText (s.reverse ++ w))
  noNul : ∀ s, nul ∉ escape s

/-- A backslash before a backslash, a quote, a double quote, and before a letter that stands for a
character without a shape. -/
def backslashed (s : List Char) : List Char :=
  s.flatMap fun c =>
    if c = nul then [backslash, '0']
    else if c = Char.ofNat 10 then [backslash, 'n']
    else if c = Char.ofNat 13 then [backslash, 'r']
    else if c = Char.ofNat 26 then [backslash, 'Z']
    else if c = backslash ∨ c = quote ∨ c = '"' then [backslash, c]
    else [c]

/-- What a character is written as is read as this character. -/
theorem run_backslashed_singleton (c : Char) (w : List Char) :
    run (.inText w) (backslashed [c]) = some ([], .inText (c :: w)) := by
  simp only [backslashed, List.flatMap_cons, List.flatMap_nil, List.append_nil]
  split_ifs with h0 hn hr hz hother
  · subst h0; rfl
  · subst hn; rfl
  · subst hr; rfl
  · subst hz; rfl
  · rcases hother with rfl | rfl | rfl <;> rfl
  · obtain ⟨hb, hq, -⟩ : c ≠ backslash ∧ c ≠ quote ∧ c ≠ '"' := by simpa using hother
    simp [run, Mode.step, hb, hq]

theorem escapes_backslashed : Escapes backslashed where
  reads s w := by
    induction s generalizing w with
    | nil => rfl
    | cons c s ih =>
      have hsplit : backslashed (c :: s) = backslashed [c] ++ backslashed s := by
        simp [backslashed]
      rw [hsplit, run_append_eq (run_backslashed_singleton c w) (ih (c :: w))]
      simp
  noNul s := by
    intro h
    obtain ⟨c, -, hc⟩ := List.mem_flatMap.mp h
    split_ifs at hc with h0 hn hr hz hother
    · revert hc; decide
    · revert hc; decide
    · revert hc; decide
    · revert hc; decide
    · rcases hother with rfl | rfl | rfl <;> revert hc <;> decide
    · exact h0 (List.mem_singleton.mp hc).symm

/-! ### The items of a list -/

/-- The characters that end an item of a list. -/
def Ends (c : Char) : Prop := c = ',' ∨ c = ')'

/-- **An item of a list**: whatever ends it, it is one part of the statement. -/
def Item (u : List Char) (t : Token) : Prop :=
  ∀ c, Ends c → run .between (u ++ [c]) = some ([t, .mark c], .between)

/-- A text in quotes. -/
def quoted (escape : List Char → List Char) (s : List Char) : List Char :=
  quote :: escape s ++ [quote]

theorem run_quoted {escape : List Char → List Char} (he : Escapes escape) (s : List Char) :
    run .between (quoted escape s) = some ([], .closed s.reverse) := by
  have hopen : run .between [quote] = some ([], .inText []) := rfl
  have hclose : run (.inText s.reverse) [quote] = some ([], .closed s.reverse) := rfl
  have hbody := he.reads s []
  rw [List.append_nil] at hbody
  exact run_append_eq (run_append_eq hopen hbody) hclose

/-- **A quoted text is one item**, whatever it holds. -/
theorem item_quoted {escape : List Char → List Char} (he : Escapes escape) (s : List Char) :
    Item (quoted escape s) (.text (String.ofList s)) := by
  rintro c (rfl | rfl)
  all_goals
    refine (run_append_eq (run_quoted he s) rfl).trans ?_
    rw [List.reverse_reverse]
    rfl

theorem run_inWord {u w : List Char} (h : ∀ c ∈ u, isWordChar c = true) :
    run (.inWord w) u = some ([], .inWord (u.reverse ++ w)) := by
  induction u generalizing w with
  | nil => rfl
  | cons c u ih =>
    obtain ⟨hc, hu⟩ := List.forall_mem_cons.mp h
    simp [run, Mode.step, hc, ih hu]

theorem run_word {u : List Char} (hne : u ≠ []) (h : ∀ c ∈ u, isWordChar c = true) :
    run .between u = some ([], .inWord u.reverse) := by
  cases u with
  | nil => exact absurd rfl hne
  | cons c u =>
    obtain ⟨hc, hu⟩ := List.forall_mem_cons.mp h
    simp [run, Mode.step, start, hc, run_inWord hu]

/-- A word is one item. -/
theorem item_word {u : List Char} (hne : u ≠ []) (h : ∀ c ∈ u, isWordChar c = true) :
    Item u (.word (String.ofList u)) := by
  rintro c (rfl | rfl)
  all_goals
    refine (run_append_eq (run_word hne h) rfl).trans ?_
    rw [List.reverse_reverse]
    rfl

theorem run_inName {u w : List Char} (h : backtick ∉ u) :
    run (.inName w) u = some ([], .inName (u.reverse ++ w)) := by
  induction u generalizing w with
  | nil => rfl
  | cons c u ih =>
    obtain ⟨hc, hu⟩ : backtick ≠ c ∧ backtick ∉ u := by simpa using h
    simp [run, Mode.step, Ne.symm hc, ih hu]

/-- A name in backticks is one item. -/
theorem item_name {u : List Char} (h : backtick ∉ u) :
    Item (backtick :: u ++ [backtick]) (.name (String.ofList u)) := by
  have hopen : run .between [backtick] = some ([], .inName []) := rfl
  have hbody : run (.inName []) u = some ([], .inName u.reverse) := by
    rw [run_inName h, List.append_nil]
  have hclose : run (.inName u.reverse) [backtick] =
      some ([.name (String.ofList u)], .between) := by
    simp [run, Mode.step]
  have hname := run_append_eq (run_append_eq hopen hbody) hclose
  rintro c (rfl | rfl)
  all_goals exact (run_append_eq hname rfl).trans rfl

/-- What is in a list is in one of its items, or in what stands between two of them. -/
theorem notMem_intercalate {α : Type*} {x : α} {sep : List α} {us : List (List α)} (hsep : x ∉ sep)
    (hus : ∀ u ∈ us, x ∉ u) : x ∉ sep.intercalate us := by
  induction us with
  | nil => simp [List.intercalate]
  | cons u us ih =>
    obtain ⟨hu, hrest⟩ := List.forall_mem_cons.mp hus
    have hmore := ih hrest
    cases us with
    | nil => simpa [List.intercalate] using hu
    | cons u' us =>
      simp only [List.intercalate, List.intersperse_cons_cons, List.flatten_cons, List.mem_append,
        not_or] at hmore ⊢
      exact ⟨hu, hsep, hmore⟩

/-- The parts of a list: its items with a comma between them, and the bracket that closes it. -/
def listTokens : List Token → List Token
  | [] => [.mark ')']
  | [t] => [t, .mark ')']
  | t :: ts => t :: .mark ',' :: listTokens ts

/-- **A list is read item by item**, where some blanks may follow a comma. -/
theorem run_list {us : List (List Char)} {ts : List Token} (h : List.Forall₂ Item us ts)
    (hne : us ≠ []) {blanks : List Char} (hblanks : run .between blanks = some ([], .between)) :
    run .between ((',' :: blanks).intercalate us ++ [')']) = some (listTokens ts, .between) := by
  induction h with
  | nil => exact absurd rfl hne
  | @cons u t us ts hitem h ih =>
    cases h with
    | nil => simpa [List.intercalate, listTokens] using hitem ')' (Or.inr rfl)
    | @cons u' t' us ts hitem' h =>
      have hrest := ih (List.cons_ne_nil _ _)
      have hsplit : (',' :: blanks).intercalate (u :: u' :: us) ++ [')'] =
          (u ++ [',']) ++ (blanks ++ ((',' :: blanks).intercalate (u' :: us) ++ [')'])) := by
        simp [List.intercalate]
      rw [hsplit, run_append_eq (hitem ',' (Or.inl rfl)) (run_append_eq hblanks hrest)]
      rfl

/-! ### Numbers -/

/-- Digits, perhaps after a sign. -/
def isInteger : List Char → Bool
  | '-' :: w => !w.isEmpty && w.all Char.isDigit
  | w => !w.isEmpty && w.all Char.isDigit

/-- What stands before a character. -/
def before (d : Char) (w : List Char) : List Char := w.takeWhile (· ≠ d)

/-- What stands after it. -/
def after (d : Char) (w : List Char) : List Char := (w.dropWhile (· ≠ d)).drop 1

/-- An exponent may have a plus. -/
def dropPlus : List Char → List Char
  | '+' :: w => w
  | w => w

/-- **The number that a word is**: an integer, perhaps digits after a point, and perhaps an
exponent. -/
def numeral (w : List Char) : Option ℚ :=
  let mantissa := before 'e' w
  let exponent := dropPlus (after 'e' w)
  let whole := before '.' mantissa
  let fraction := after '.' mantissa
  if isInteger whole && fraction.all Char.isDigit && (exponent.isEmpty || isInteger exponent) then
    some ((intOf (whole ++ fraction) : ℚ) / 10 ^ fraction.length * 10 ^ intOf exponent)
  else none

theorem isWordChar_of_isDigit {c : Char} (h : c.isDigit = true) : isWordChar c = true := by
  simp [isWordChar, Char.isAlphanum, h]

theorem isWordChar_of_isInteger {w : List Char} (h : isInteger w = true) :
    w ≠ [] ∧ ∀ c ∈ w, isWordChar c = true := by
  unfold isInteger at h
  split at h
  · refine ⟨List.cons_ne_nil _ _, List.forall_mem_cons.mpr ⟨by decide, fun c hc => ?_⟩⟩
    exact isWordChar_of_isDigit (List.all_eq_true.mp (Bool.and_eq_true_iff.mp h).2 c hc)
  · obtain ⟨hne, hall⟩ := Bool.and_eq_true_iff.mp h
    refine ⟨fun hnil => ?_, fun c hc => isWordChar_of_isDigit (List.all_eq_true.mp hall c hc)⟩
    rw [hnil] at hne
    cases hne

/-- The characters of a word are those before a character, it, and those after it. -/
theorem mem_before_or_after {d c : Char} {w : List Char} (h : c ∈ w) :
    c ∈ before d w ∨ c = d ∨ c ∈ after d w := by
  rw [← List.takeWhile_append_dropWhile (p := (· ≠ d)) (l := w), List.mem_append] at h
  rcases h with h | h
  · exact Or.inl h
  · unfold after
    cases hdrop : w.dropWhile (· ≠ d) with
    | nil => rw [hdrop] at h; cases h
    | cons x rest =>
      have hx : x = d := by
        by_contra hne
        have hhead := List.head?_dropWhile_not (fun c => decide (c ≠ d)) w
        rw [hdrop] at hhead
        simp [hne] at hhead
      rw [hdrop] at h
      rcases List.mem_cons.mp h with rfl | h
      · exact Or.inr (Or.inl hx)
      · exact Or.inr (Or.inr h)

/-- A number is a word. -/
theorem isWordChar_of_numeral {w : List Char} {q : ℚ} (h : numeral w = some q) :
    w ≠ [] ∧ ∀ c ∈ w, isWordChar c = true := by
  simp only [numeral, Option.ite_none_right_eq_some] at h
  obtain ⟨hnumber, -⟩ := h
  simp only [Bool.and_eq_true, Bool.or_eq_true, List.isEmpty_iff] at hnumber
  obtain ⟨⟨hwhole, hfraction⟩, hexponent⟩ := hnumber
  obtain ⟨hne, hwhole⟩ := isWordChar_of_isInteger hwhole
  refine ⟨by rintro rfl; exact hne rfl, fun c hc => ?_⟩
  rcases mem_before_or_after (d := 'e') hc with hc | rfl | hc
  · rcases mem_before_or_after (d := '.') hc with hc | rfl | hc
    · exact hwhole c hc
    · decide
    · exact isWordChar_of_isDigit (List.all_eq_true.mp hfraction c hc)
  · decide
  · have hplus : c = '+' ∨ c ∈ dropPlus (after 'e' w) := by
      unfold dropPlus
      split
      · next rest heq => rw [heq] at hc; exact List.mem_cons.mp hc
      · exact Or.inr hc
    rcases hplus with rfl | hc
    · decide
    · rcases hexponent with hnil | hexponent
      · rw [hnil] at hc; cases hc
      · exact (isWordChar_of_isInteger hexponent).2 c hc

theorem isInteger_repr (n : ℤ) : isInteger n.repr.toList = true := by
  have hdigits : ∀ m : ℕ, (!(Nat.toDigits 10 m).isEmpty && (Nat.toDigits 10 m).all Char.isDigit) =
      true := by
    intro m
    refine Bool.and_eq_true_iff.mpr ⟨by simp, List.all_eq_true.mpr fun c hc => ?_⟩
    exact Nat.isDigit_of_mem_toDigits (by decide) (by decide) hc
  rw [Int.repr_eq_if]
  split
  · rw [Nat.toList_repr]
    unfold isInteger
    split
    · next w heq =>
      -- a sign is not a digit
      have hall := (Bool.and_eq_true_iff.mp (hdigits n.toNat)).2
      rw [heq] at hall
      cases hall
    · exact hdigits n.toNat
  · rw [toList_neg_repr]
    exact hdigits _

/-- **An integer is read as the number that it is.** -/
theorem numeral_repr (n : ℤ) : numeral n.repr.toList = some (n : ℚ) := by
  have hne : ∀ d : Char, d.isDigit = false → d ≠ '-' → ∀ c ∈ n.repr.toList,
      decide (c ≠ d) = true := by
    intro d hdigit hminus c hc
    refine decide_eq_true ?_
    rintro rfl
    rcases isDigit_or_of_mem_repr hc with h | h
    · rw [hdigit] at h; cases h
    · exact hminus h
  have hbefore : ∀ d : Char, d.isDigit = false → d ≠ '-' →
      before d n.repr.toList = n.repr.toList ∧ after d n.repr.toList = [] := by
    intro d hdigit hminus
    have h := hne d hdigit hminus
    exact ⟨List.takeWhile_eq_self_iff.mpr h, by
      rw [after, List.dropWhile_eq_nil_iff.mpr h]; rfl⟩
  obtain ⟨hb, ha⟩ := hbefore 'e' (by decide) (by decide)
  obtain ⟨hb', ha'⟩ := hbefore '.' (by decide) (by decide)
  have hint := isInteger_repr n
  simp only [numeral, hb, ha, hb', ha', hint, List.append_nil, intOf_repr]
  simp [dropPlus, intOf]

/-! ### INSERT statements -/

/-- What a server reads as a value. -/
inductive Literal where
  | null
  | number (q : ℚ)
  | text (s : String)
  deriving DecidableEq

/-- An INSERT of one row. -/
structure Statement where
  table : String
  columns : List String
  values : List Literal
  deriving DecidableEq

def column : Token → Option String
  | .word w => some w
  | .name w => some w
  | _ => none

def literal : Token → Option Literal
  | .text s => some (.text s)
  | .word w => if w = "NULL" then some .null else (numeral w.toList).map .number
  | _ => none

/-- The items of a list, and what follows the list. -/
def items {α : Type*} (item : Token → Option α) : List Token → Option (List α × List Token)
  | t :: .mark ')' :: ts => (item t).map fun a => ([a], ts)
  | t :: .mark ',' :: ts => (item t).bind fun a => (items item ts).map fun r => (a :: r.1, r.2)
  | _ => none

/-- `INSERT INTO` a table, a list of columns, and a list of as many values. -/
def statement : List Token → Option Statement
  | .word "INSERT" :: .word "INTO" :: .word table :: .mark '(' :: ts =>
    match items column ts with
    | some (columns, .word "VALUES" :: .mark '(' :: ts) =>
      match items literal ts with
      | some (values, []) =>
        if columns.length = values.length then some ⟨table, columns, values⟩ else none
      | _ => none
    | _ => none
  | _ => none

/-- **The INSERT that a text is**, if it is one. -/
def read (cs : List Char) : Option Statement := (lex cs).bind statement

theorem items_listTokens {α : Type*} {item : Token → Option α} {ts : List Token} {as : List α}
    (h : List.Forall₂ (fun t a => item t = some a) ts as) (hne : ts ≠ []) (rest : List Token) :
    items item (listTokens ts ++ rest) = some (as, rest) := by
  induction h with
  | nil => exact absurd rfl hne
  | @cons t a ts as ha h ih =>
    cases h with
    | nil => simp [listTokens, items, ha]
    | @cons t' a' ts as ha' h =>
      have hrest := ih (List.cons_ne_nil _ _)
      simp only [listTokens, List.cons_append, items, ha, Option.bind_some, hrest,
        Option.map_some]

/-- **A statement is read as the one that it was written for**: items that are columns and items
that are values, as many of the one as of the other. -/
theorem read_insert {table : List Char} (htne : table ≠ [])
    (htable : ∀ c ∈ table, isWordChar c = true)
    {us vs : List (List Char)} {cts vts : List Token} {columns : List String}
    {values : List Literal} (hus : List.Forall₂ Item us cts) (hvs : List.Forall₂ Item vs vts)
    (hcolumns : List.Forall₂ (fun t a => column t = some a) cts columns)
    (hvalues : List.Forall₂ (fun t a => literal t = some a) vts values)
    (hne : us ≠ []) (hlength : columns.length = values.length) :
    read ("INSERT INTO ".toList ++ table ++ " (".toList ++
      ([',', ' '].intercalate us ++ [')']) ++ " VALUES (".toList ++
      ([','].intercalate vs ++ [')'])) = some ⟨String.ofList table, columns, values⟩ := by
  have hvne : vs ≠ [] := by
    rintro rfl
    cases hvs
    cases hvalues
    cases hcolumns with
    | nil => cases hus; exact hne rfl
    | cons _ _ => cases hlength
  have hverb : run .between "INSERT INTO ".toList =
      some ([.word "INSERT", .word "INTO"], .between) := by rfl
  have hopen : run (.inWord table.reverse) " (".toList =
      some ([.word (String.ofList table), .mark '('], .between) := by
    have hword : ∀ w, run (.inWord w) " (".toList =
        some ([.word (String.ofList w.reverse), .mark '('], .between) := fun w => rfl
    rw [hword, List.reverse_reverse]
  have hvalue : run .between " VALUES (".toList =
      some ([.word "VALUES", .mark '('], .between) := by rfl
  have hblank : run .between [' '] = some ([], .between) := rfl
  have hnothing : run .between [] = some ([], .between) := rfl
  have hrun := run_append_eq (run_append_eq (run_append_eq (run_append_eq (run_append_eq hverb
    (run_word htne htable)) hopen) (run_list hus hne hblank)) hvalue)
    (run_list hvs hvne hnothing)
  have hcne : cts ≠ [] := by rintro rfl; cases hus; exact hne rfl
  have htne : vts ≠ [] := by rintro rfl; cases hvs; exact hvne rfl
  have hcs := items_listTokens hcolumns hcne (.word "VALUES" :: .mark '(' :: listTokens vts)
  have hvs' := items_listTokens hvalues htne []
  rw [List.append_nil] at hvs'
  simp only [read, lex, hrun, Mode.finish, Option.bind_some, Option.map_some]
  simp only [List.append_nil, List.append_assoc, List.cons_append, List.nil_append, statement, hcs,
    hvs', hlength, if_true]

end SqlText
