import MonitorSystem.Manager.QueryExecution

/-!
# Reading the rows of an answer

The rows that `executePreparedRows` returns are texts, a null being the empty one, and the
fields of a record are read from them by their position (`toFloat`, `toU64`, `toI64`, `toBool`
and `parseTimeString` of `manager/src/QueryManager.cpp`). Reading an integer throws where the
text does not begin with one, or with one that is too large.

With a server that carries values exactly (`Sql.ExactDialect`) a number that is read is the
value of the column at that position (`toFloat_texts`), and a null is read as zero. An integer
that is in the range of its type is read as what it is (`toU64_fetched`, `toI64_fetched`).
-/

namespace MonitorSystem

open Sql

/-- What reading a time takes from the machine. -/
structure Clock where
  /-- `get_time` and `mktime`: the seconds of a text. -/
  mktime : String → ℤ
  /-- `system_clock::now`, in nanoseconds. -/
  now : ℤ

section Reading

variable (d : ExactDialect) (clock : Clock)

/-- The text at a position, empty if there is none. -/
def textAt (row : List String) (index : ℕ) : String := (row[index]?).getD ""

/-- `toFloat`. -/
def toFloat (row : List String) (index : ℕ) : ℚ :=
  if textAt row index = "" then 0 else d.read (textAt row index)

/-- `toBool`. -/
def toBool (row : List String) (index : ℕ) : Bool :=
  textAt row index ∈ ["1", "true", "TRUE", "yes", "YES"]

/-- `isspace`, of the C locale. -/
def isspace (c : Char) : Bool := c ∈ [' ', '\t', '\n', '\x0b', '\x0c', '\r']

/-- The number with which a text begins, if it begins with one. -/
def leadingNat (text : List Char) : Option ℕ :=
  if text.takeWhile (·.isDigit) = [] then none
  else some (Nat.ofDigitChars 10 (text.takeWhile (·.isDigit)) 0)

/-- The sign and the number with which a text begins, after blanks. -/
def leadingNumber (text : String) : Option (Bool × ℕ) :=
  match text.toList.dropWhile isspace with
  | '-' :: rest => (leadingNat rest).map (true, ·)
  | '+' :: rest => (leadingNat rest).map (false, ·)
  | rest => (leadingNat rest).map (false, ·)

/-- `std::stoull`, nothing where it throws. A negative number is taken modulo `2 ^ 64`. -/
def stoull (text : String) : Option UInt64 :=
  (leadingNumber text).bind fun (negative, n) =>
    if n < 2 ^ 64 then some (if negative then -UInt64.ofNat n else UInt64.ofNat n) else none

/-- `std::stoll`, nothing where it throws. -/
def stoll (text : String) : Option ℤ :=
  (leadingNumber text).bind fun (negative, n) =>
    let value : ℤ := if negative then -(n : ℤ) else n
    if -(2 ^ 63) ≤ value ∧ value < 2 ^ 63 then some value else none

/-- `toU64`. -/
def toU64 (row : List String) (index : ℕ) : Option UInt64 :=
  if textAt row index = "" then some 0 else stoull (textAt row index)

/-- `toI64`. -/
def toI64 (row : List String) (index : ℕ) : Option ℤ :=
  if textAt row index = "" then some 0 else stoll (textAt row index)

/-- `parseTimeString`, in nanoseconds. -/
def parseTimeString (timeStr : String) : ℤ := fromTimeT (clock.mktime timeStr)

/-- The time at a position, the present one if there is none. -/
def timeAt (row : List String) (index : ℕ) : ℤ :=
  if textAt row index = "" then clock.now else parseTimeString clock (textAt row index)

end Reading

/-! ### Reading what is fetched -/

section Texts

variable {d : ExactDialect} {columns : List String} {r : Row} {i : ℕ} {c : String}

theorem textAt_texts (h : columns[i]? = some c) :
    textAt (Row.texts d.toDialect columns r) i = d.fetch (r.get c) := by
  simp [textAt, Row.texts, h]

/-- **A number is read as what it is.** -/
theorem toFloat_texts (h : columns[i]? = some c) {q : ℚ} (hq : (r.get c).rat? = some q) :
    toFloat d (Row.texts d.toDialect columns r) i = q := by
  rw [toFloat, textAt_texts h, if_neg (d.fetch_rat hq), d.read_fetch hq]

/-- A null is read as zero. -/
theorem toFloat_texts_null (h : columns[i]? = some c) (hc : r.get c = .null) :
    toFloat d (Row.texts d.toDialect columns r) i = 0 := by
  rw [toFloat, textAt_texts h, hc, d.fetch_null, if_pos rfl]

end Texts

/-! ### Reading integers -/

theorem leadingNat_toDigits (n : ℕ) : leadingNat (Nat.toDigits 10 n) = some n := by
  have hdigits : (Nat.toDigits 10 n).takeWhile (·.isDigit) = Nat.toDigits 10 n :=
    List.takeWhile_eq_self_iff.mpr fun c hc =>
      Nat.isDigit_of_mem_toDigits (by decide) (by decide) hc
  rw [leadingNat, hdigits, if_neg Nat.toDigits_ne_nil, Nat.ofDigitChars_ten_toDigits]

/-- A digit is not a blank. -/
theorem isspace_eq_false_of_isDigit {c : Char} (h : c.isDigit = true) : isspace c = false := by
  by_contra hcon
  simp only [isspace, List.mem_cons, List.not_mem_nil, or_false, Bool.not_eq_false,
    decide_eq_true_eq] at hcon
  rcases hcon with rfl | rfl | rfl | rfl | rfl | rfl <;> cases h

/-- **The number that a decimal text begins with is the number that it stands for.** -/
theorem leadingNumber_toString (n : ℤ) :
    leadingNumber (toString n) = some (decide (n < 0), n.natAbs) := by
  rw [Int.toString_eq_repr, Int.repr_eq_if]
  split
  · next h =>
    obtain ⟨c, cs, hcs⟩ := List.exists_cons_of_ne_nil (Nat.toDigits_ne_nil (n := n.toNat) (b := 10))
    have hdigit : ∀ c ∈ Nat.toDigits 10 n.toNat, c.isDigit = true := fun c hc =>
      Nat.isDigit_of_mem_toDigits (by decide) (by decide) hc
    have hblank := isspace_eq_false_of_isDigit (hdigit c (by simp [hcs]))
    unfold leadingNumber
    rw [Nat.toList_repr, hcs, List.dropWhile_cons_of_neg (by simp [hblank]), ← hcs]
    -- a sign is not a digit
    split
    · next rest hrest => cases hdigit '-' (by simp [hrest])
    · next rest hrest => cases hdigit '+' (by simp [hrest])
    · rw [leadingNat_toDigits, Option.map_some, decide_eq_false (by omega)]
      congr 2
      omega
  · next h =>
    rw [leadingNumber, Sql.toList_neg_repr, List.dropWhile_cons_of_neg (by decide)]
    simp only [leadingNat_toDigits, Option.map_some]
    rw [decide_eq_true (by omega)]
    congr 2
    omega

theorem stoull_toString (n : UInt64) : stoull (toString (n.toNat : ℤ)) = some n := by
  rw [stoull, leadingNumber_toString, decide_eq_false (by omega)]
  exact (if_pos n.toNat_lt).trans (congrArg some (UInt64.ofNat_toNat))

theorem stoll_toString {n : ℤ} (h : -(2 ^ 63) ≤ n ∧ n < 2 ^ 63) :
    stoll (toString n) = some n := by
  have hvalue : (if decide (n < 0) = true then -(n.natAbs : ℤ) else n.natAbs) = n := by
    rcases lt_or_ge n 0 with hneg | hnonneg
    · rw [decide_eq_true hneg, if_pos rfl]
      omega
    · rw [decide_eq_false (not_lt.mpr hnonneg), if_neg (by decide)]
      omega
  rw [stoll, leadingNumber_toString]
  simp only [Option.bind_some, hvalue, if_pos h]

section Fetched

variable {d : ExactDialect} {vs : List Value} {row : List String}
  (hrow : row = vs.map d.fetch) (i : ℕ)

include hrow

theorem textAt_fetched {v : Value} (h : vs[i]? = some v) : textAt row i = d.fetch v := by
  simp [hrow, textAt, h]

/-- A text among values that are fetched is read as what it is. -/
theorem text_fetched {s : String} (h : vs[i]? = some (.text s)) : textAt row i = s := by
  rw [textAt_fetched hrow i h, d.fetch_text]

/-- So is a number, -/
theorem toFloat_fetched {q : ℚ} (h : vs[i]? = some (.num q)) : toFloat d row i = q := by
  rw [toFloat, textAt_fetched hrow i h, if_neg (d.fetch_rat rfl), d.read_fetch rfl]

/-- an unsigned integer, -/
theorem toU64_fetched {n : UInt64} (h : vs[i]? = some (.int n.toNat)) :
    toU64 row i = some n := by
  rw [toU64, textAt_fetched hrow i h, if_neg (d.fetch_rat rfl), d.fetch_int, stoull_toString]

/-- a signed one, -/
theorem toI64_fetched {n : ℤ} (h : vs[i]? = some (.int n))
    (hrange : -(2 ^ 63) ≤ n ∧ n < 2 ^ 63) : toI64 row i = some n := by
  rw [toI64, textAt_fetched hrow i h, if_neg (d.fetch_rat rfl), d.fetch_int, stoll_toString hrange]

/-- and a flag. -/
theorem toBool_fetched {b : Bool} (h : vs[i]? = some (.int (if b then 1 else 0))) :
    toBool row i = b := by
  rw [toBool, textAt_fetched hrow i h, d.fetch_int]
  cases b <;> decide

end Fetched

end MonitorSystem
