import MonitorSystem.Library.Calendar
import MonitorSystem.Manager.ScoreRank
import Mathlib.Algebra.Order.Ring.Abs
import Mathlib.Data.Nat.Digits.Defs
import Mathlib.Tactic.Linarith
import Mathlib.Tactic.Ring

/-!
# Times as texts, and back

A time is written as a text of the local time, in whole seconds (`formatTimePoint`, and `timeStr`
in `HostManager::writeToMysql`), and read with `get_time` and `mktime` (`parseTimeString`). What is
a parameter elsewhere is made here of a time zone: `Zone.localTime` is `strftime` of `localtime`,
and `Zone.timeOf` is `mktime` of what `get_time` reads.

A text does not say whether daylight saving is in force. `parseTimeString` starts from a `tm` that
is all zeros, so `tm_isdst` says that it is not. A time of which the local time is unambiguous is
read back exactly if that is so (`survives_iff`).
-/

namespace MonitorSystem

open Sql

/-! ### Broken-down times -/

/-- `std::tm`, without the days of the week and of the year. -/
@[ext] structure Tm where
  sec : ℤ := 0
  min : ℤ := 0
  hour : ℤ := 0
  mday : ℤ := 0
  mon : ℤ := 0
  year : ℤ := 0
  isdst : ℤ := 0
  deriving DecidableEq, Repr

namespace Tm

/-- What a clock in Greenwich would show: the seconds since 1970. -/
def reading (tm : Tm) : ℤ :=
  (⟨tm.year + 1900, tm.mon + 1, tm.mday⟩ : Calendar.Date).toDays * 86400 + tm.hour * 3600 +
    tm.min * 60 + tm.sec

/-- The fields of such seconds. -/
def ofReading (seconds : ℤ) : Tm :=
  let date := Calendar.Date.ofDays (seconds / 86400)
  { sec := seconds % 60
    min := seconds / 60 % 60
    hour := seconds / 3600 % 24
    mday := date.day
    mon := date.month - 1
    year := date.year - 1900 }

theorem reading_ofReading (seconds : ℤ) : (ofReading seconds).reading = seconds := by
  simp only [reading, ofReading, sub_add_cancel]
  rw [Calendar.Date.toDays_ofDays]
  omega

/-- The fields are in the ranges in which they are written and read. -/
structure Valid (tm : Tm) : Prop where
  sec : 0 ≤ tm.sec ∧ tm.sec ≤ 59
  min : 0 ≤ tm.min ∧ tm.min ≤ 59
  hour : 0 ≤ tm.hour ∧ tm.hour ≤ 23
  mday : 1 ≤ tm.mday ∧ tm.mday ≤ 31
  mon : 0 ≤ tm.mon ∧ tm.mon ≤ 11
  year : 0 ≤ tm.year + 1900 ∧ tm.year + 1900 ≤ 9999

/-- A time of the clock of the system, in any zone. -/
theorem valid_ofReading {seconds : ℤ} (hlow : -10000000000 ≤ seconds)
    (hhigh : seconds ≤ 10000000000) : (ofReading seconds).Valid := by
  have hdate := Calendar.Date.isDate_ofDays (seconds / 86400)
  obtain ⟨hmonth, hmonth', hday, hday'⟩ := hdate
  obtain ⟨hyear, hyear'⟩ := Calendar.Date.year_ofDays_mem (n := seconds / 86400) (by omega)
    (by omega)
  constructor <;> simp only [ofReading] <;> omega

end Tm

/-! ### Writing and reading -/

/-- A number below a hundred, with two digits. -/
def twoDigits (n : ℤ) : List Char :=
  [Nat.digitChar (n.toNat / 10), Nat.digitChar (n.toNat % 10)]

/-- `strftime`, with the format `%Y-%m-%d %H:%M:%S`. -/
def strftime (tm : Tm) : String :=
  String.ofList (Nat.toDigits 10 (tm.year + 1900).toNat ++ '-' :: (twoDigits (tm.mon + 1) ++ '-' ::
    (twoDigits tm.mday ++ ' ' :: (twoDigits tm.hour ++ ':' :: (twoDigits tm.min ++ ':' ::
      (twoDigits tm.sec ++ []))))))

/-- A number of at most some digits, and the text after it. -/
def readNumber (width : ℕ) (text : List Char) : Option (ℕ × List Char) :=
  let digits := (text.take width).takeWhile (·.isDigit)
  if digits = [] then none
  else some (Nat.ofDigitChars 10 digits 0, text.drop digits.length)

/-- A part of a format: a conversion with its width and range, or a character. -/
inductive TimePart where
  | number (width low high : ℕ) (set : Tm → ℕ → Tm)
  | char (c : Char)

/-- Reading the parts of a format; where one does not fit, the fields stay as they are. -/
def getParts : List TimePart → Tm → List Char → Tm
  | [], tm, _ => tm
  | .char _ :: _, tm, [] => tm
  | .char c :: parts, tm, c' :: text => if c' = c then getParts parts tm text else tm
  | .number width low high set :: parts, tm, text =>
    match readNumber width text with
    | none => tm
    | some (n, rest) => if low ≤ n ∧ n ≤ high then getParts parts (set tm n) rest else tm

/-- `%Y-%m-%d %H:%M:%S`. -/
def timeFormat : List TimePart :=
  [.number 4 0 9999 fun tm n => { tm with year := n - 1900 },
    .char '-', .number 2 1 12 fun tm n => { tm with mon := n - 1 },
    .char '-', .number 2 1 31 fun tm n => { tm with mday := n },
    .char ' ', .number 2 0 23 fun tm n => { tm with hour := n },
    .char ':', .number 2 0 59 fun tm n => { tm with min := n },
    .char ':', .number 2 0 60 fun tm n => { tm with sec := n }]

/-- `tm = {}`, and `get_time`. -/
def getTime (text : String) : Tm := getParts timeFormat {} text.toList

section Reading

variable {width : ℕ} {digits rest : List Char}

/-- Digits are read up to the first other character. -/
theorem readNumber_append (hdigits : ∀ c ∈ digits, c.isDigit) (hne : digits ≠ [])
    (hwidth : digits.length ≤ width) (hrest : ∀ c ∈ rest.head?, c.isDigit = false) :
    readNumber width (digits ++ rest) = some (Nat.ofDigitChars 10 digits 0, rest) := by
  have hstop : ∀ n, (rest.take n).takeWhile (·.isDigit) = [] := by
    intro n
    cases rest with
    | nil => simp
    | cons c rest =>
      cases n with
      | zero => simp
      | succ n => simp [hrest c rfl]
  have htake : ((digits ++ rest).take width).takeWhile (·.isDigit) = digits := by
    rw [List.take_append, List.take_of_length_le hwidth, List.takeWhile_append_of_pos hdigits,
      hstop, List.append_nil]
  simp only [readNumber, htake, if_neg hne, List.drop_left]

theorem isDigit_of_mem_twoDigits {n : ℤ} (hn : n ≤ 99) {c : Char} (hc : c ∈ twoDigits n) :
    c.isDigit := by
  have hdigit : ∀ m < 10, (Nat.digitChar m).isDigit := fun m hm => by
    rw [Nat.isDigit_digitChar, decide_eq_true hm]
  rcases List.mem_cons.mp hc with rfl | hc
  · exact hdigit _ (by omega)
  · rw [List.mem_singleton.mp hc]
    exact hdigit _ (by omega)

/-- **Two digits are read as the number.** -/
theorem readNumber_twoDigits {n : ℤ} (hn : n ≤ 99) (hrest : ∀ c ∈ rest.head?, c.isDigit = false) :
    readNumber 2 (twoDigits n ++ rest) = some (n.toNat, rest) := by
  have hlength : (twoDigits n).length ≤ 2 := le_rfl
  rw [readNumber_append (fun c hc => isDigit_of_mem_twoDigits hn hc) (List.cons_ne_nil _ _) hlength
    hrest, twoDigits, Nat.ofDigitChars_cons_digitChar_of_lt_ten (by omega),
    Nat.ofDigitChars_cons_digitChar_of_lt_ten (by omega), Nat.ofDigitChars_nil]
  congr 2
  omega

/-- **The year is read as the number.** -/
theorem readNumber_year {n : ℕ} (hn : n ≤ 9999) (hrest : ∀ c ∈ rest.head?, c.isDigit = false) :
    readNumber 4 (Nat.toDigits 10 n ++ rest) = some (n, rest) := by
  rw [readNumber_append (fun c hc => Nat.isDigit_of_mem_toDigits (by decide) (by decide) hc)
    Nat.toDigits_ne_nil (Nat.toDigits_length 10 n 4 (by decide) (by omega)) hrest,
    Nat.ofDigitChars_ten_toDigits]

theorem getParts_number {low high n : ℕ} {set : Tm → ℕ → Tm} {parts : List TimePart} {tm : Tm}
    {text : List Char} (h : readNumber width text = some (n, rest)) (hlow : low ≤ n)
    (hhigh : n ≤ high) :
    getParts (.number width low high set :: parts) tm text = getParts parts (set tm n) rest := by
  simp only [getParts, h]
  rw [if_pos ⟨hlow, hhigh⟩]

theorem getParts_char {c : Char} {parts : List TimePart} {tm : Tm} {text : List Char} :
    getParts (.char c :: parts) tm (c :: text) = getParts parts tm text := by
  simp only [getParts, if_true]

/-- **The fields that are written are read**, but for the last one. -/
theorem getTime_strftime {tm : Tm} (h : tm.Valid) :
    getTime (strftime tm) = { tm with isdst := 0 } := by
  obtain ⟨hsec, hmin, hhour, hmday, hmon, hyear⟩ := h
  have hnext : ∀ {c : Char} {text : List Char}, c.isDigit = false →
      ∀ d ∈ (c :: text).head?, d.isDigit = false := by
    intro c text hc d hd
    obtain rfl := Option.some.inj hd
    exact hc
  have hlast : ∀ d ∈ ([] : List Char).head?, d.isDigit = false := fun d hd => (by cases hd)
  rw [getTime, strftime, String.toList_ofList, timeFormat,
    getParts_number (readNumber_year (by omega) (hnext (by decide))) (by omega) (by omega),
    getParts_char,
    getParts_number (readNumber_twoDigits (by omega) (hnext (by decide))) (by omega) (by omega),
    getParts_char,
    getParts_number (readNumber_twoDigits (by omega) (hnext (by decide))) (by omega) (by omega),
    getParts_char,
    getParts_number (readNumber_twoDigits (by omega) (hnext (by decide))) (by omega) (by omega),
    getParts_char,
    getParts_number (readNumber_twoDigits (by omega) (hnext (by decide))) (by omega) (by omega),
    getParts_char,
    getParts_number (readNumber_twoDigits (by omega) hlast) (by omega) (by omega), getParts]
  ext <;> dsimp only <;> omega

end Reading

/-! ### Seconds in nanoseconds -/

/-- A time that fits into the clock of the system, which counts nanoseconds in 64 bits. -/
def Fits (t : ℤ) : Prop := -2 ^ 63 ≤ t * 1000000000 ∧ t * 1000000000 < 2 ^ 63

instance decidableFits (t : ℤ) : Decidable (Fits t) :=
  inferInstanceAs (Decidable (-2 ^ 63 ≤ t * 1000000000 ∧ _))

theorem fromTimeT_of_fits {t : ℤ} (h : Fits t) : fromTimeT t = t * 1000000000 := by
  obtain ⟨hlow, hhigh⟩ := h
  refine Int.bmod_eq_of_le_mul_two ?_ ?_ <;> push_cast <;> omega

/-- Seconds that are not far off are told apart. -/
theorem fromTimeT_eq_iff {t off : ℤ} (ht : Fits t) (hoff : |off| < 1209600) :
    fromTimeT (t + off) = t * 1000000000 ↔ off = 0 := by
  constructor
  · intro h
    have hdvd : ((2 ^ 64 : ℕ) : ℤ) ∣ fromTimeT (t + off) - (t + off) * 1000000000 :=
      Int.dvd_bmod_sub_self
    have hsub : t * 1000000000 - (t + off) * 1000000000 = -off * 1000000000 := by ring
    rw [h, hsub] at hdvd
    have hlt : |-off * 1000000000| < ((2 ^ 64 : ℕ) : ℤ) := by
      rw [abs_mul, abs_neg]
      norm_num
      linarith
    simpa using Int.eq_zero_of_abs_lt_dvd hdvd hlt
  · intro h
    rw [h, add_zero, fromTimeT_of_fits ht]

/-! ### Time zones -/

/-- The local time of a time is the local time of no other. -/
def Unambiguous (offset : ℤ → ℤ) (t : ℤ) : Prop :=
  ∀ u, u + offset u = t + offset t → u = t

/-- **A time zone**: the offset of the local time that is in force at a time, whether this is with
daylight saving, and the offset with which `mktime` takes the fields of a reading for a value of
`tm_isdst`. With zero this is the offset of standard time, which is the one in force exactly when
daylight saving is not. With a negative value `mktime` finds the one in force. -/
structure Zone where
  offset : ℤ → ℤ
  isDst : ℤ → Bool
  readOffset : ℤ → ℤ → ℤ
  abs_offset_lt : ∀ t, |offset t| < 604800
  abs_readOffset_lt : ∀ isdst reading, |readOffset isdst reading| < 604800
  readOffset_zero : ∀ t, Unambiguous offset t →
    (readOffset 0 (t + offset t) = offset t ↔ isDst t = false)
  readOffset_neg : ∀ isdst < 0, ∀ t, Unambiguous offset t →
    readOffset isdst (t + offset t) = offset t

namespace Zone

variable (z : Zone)

/-- `localtime`. -/
def localtime (t : ℤ) : Tm :=
  { Tm.ofReading (t + z.offset t) with isdst := if z.isDst t then 1 else 0 }

/-- `mktime`. -/
def mktime (tm : Tm) : ℤ := tm.reading - z.readOffset tm.isdst tm.reading

/-- The text of the local time. -/
def localTime (t : ℤ) : String := strftime (z.localtime t)

/-- The seconds of a text. -/
def timeOf (text : String) : ℤ := z.mktime (getTime text)

/-- `UNIX_TIMESTAMP`, of a server whose session is in the zone. -/
def unixTimestamp (text : String) : ℤ :=
  let n := z.mktime { getTime text with isdst := -1 }
  if 0 ≤ n then n else 0

/-- `FROM_UNIXTIME(FLOOR(UNIX_TIMESTAMP(t) / a) * b)`, of such a server. -/
def bucket : Value → Value → Value → Value
  | .int a, .int b, .text s => .text (z.localTime (z.unixTimestamp s / a * b))
  | _, _, _ => .null

/-- A machine in the zone. -/
def platform (p : Platform) : Platform := { p with localTime := z.localTime }

/-- Its clock. -/
def clock (now : ℤ) : Clock := ⟨z.timeOf, now⟩

/-- **The clock shows standard time**: what it shows, taken as standard time, is the time. -/
def InStandardTime (t : ℤ) : Prop := z.readOffset 0 (t + z.offset t) = z.offset t

instance decidableInStandardTime (t : ℤ) : Decidable (z.InStandardTime t) :=
  inferInstanceAs (Decidable (z.readOffset 0 _ = _))

variable {z}

theorem inStandardTime_iff {t : ℤ} (h : Unambiguous z.offset t) :
    z.InStandardTime t ↔ z.isDst t = false := z.readOffset_zero t h

theorem getTime_localTime {t : ℤ} (ht : Fits t) :
    getTime (z.localTime t) = Tm.ofReading (t + z.offset t) := by
  obtain ⟨hlow, hhigh⟩ := ht
  have hoffset := abs_lt.mp (z.abs_offset_lt t)
  have hvalid : (z.localtime t).Valid := by
    have hfields : (Tm.ofReading (t + z.offset t)).Valid :=
      Tm.valid_ofReading (by omega) (by omega)
    exact ⟨hfields.sec, hfields.min, hfields.hour, hfields.mday, hfields.mon, hfields.year⟩
  exact getTime_strftime hvalid

/-- **What is read of the text of a time**: what the clock shows is taken as standard time. -/
theorem timeOf_localTime {t : ℤ} (ht : Fits t) :
    z.timeOf (z.localTime t) = t + z.offset t - z.readOffset 0 (t + z.offset t) := by
  have hreading := Tm.reading_ofReading (t + z.offset t)
  rw [timeOf, getTime_localTime ht, mktime, hreading]
  rfl

/-- With `tm_isdst` undetermined, a time that is unambiguous is found again. -/
theorem unixTimestamp_localTime {t : ℤ} (ht : Fits t) (hepoch : 0 ≤ t)
    (h : Unambiguous z.offset t) : z.unixTimestamp (z.localTime t) = t := by
  have hreading : ({ Tm.ofReading (t + z.offset t) with isdst := -1 } : Tm).reading =
      t + z.offset t := Tm.reading_ofReading _
  have hfound : z.mktime { getTime (z.localTime t) with isdst := -1 } = t := by
    rw [getTime_localTime ht, mktime, hreading, z.readOffset_neg (-1) (by decide) t h,
      add_sub_cancel_right]
  simp only [unixTimestamp, hfound, if_pos hepoch]

/-- **A time is read back** exactly when the clock shows standard time. -/
theorem parseTimeString_localTime_iff {t : ℤ} (ht : Fits t) (now : ℤ) :
    parseTimeString (z.clock now) (z.localTime t) = t * 1000000000 ↔ z.InStandardTime t := by
  have hoffset := abs_lt.mp (z.abs_offset_lt t)
  have hread := abs_lt.mp (z.abs_readOffset_lt 0 (t + z.offset t))
  have hparse : parseTimeString (z.clock now) (z.localTime t) =
      fromTimeT (t + (z.offset t - z.readOffset 0 (t + z.offset t))) := by
    rw [← add_sub_assoc]
    exact congrArg fromTimeT (timeOf_localTime ht)
  rw [hparse, fromTimeT_eq_iff ht (abs_lt.mpr ⟨by omega, by omega⟩), sub_eq_zero, InStandardTime]
  exact eq_comm

end Zone

/-! ### Rows -/

section Rows

variable (z : Zone) (d : ExactDialect) (p : Platform) (data : HostMonitoringData)
  (now t interval : ℤ)

/-- **The time of a row survives**: it is read back from its text, in every record that is made of
the row; in the latest scores the age, and with it the status, is that of the time; and so is the
bucket of a trend, if the server counts from 1970. -/
structure Survives : Prop where
  parsed : parseTimeString (z.clock now) (formatTimePoint (z.platform p) (t * 1000000000)) =
    t * 1000000000
  timestamp : ∀ row index,
    textAt row index = d.fetch (MysqlWriter.timestampValue (z.platform p) data) →
      timeAt (z.clock now) row index = t * 1000000000
  age : ∀ row, textAt row 2 = d.fetch (MysqlWriter.timestampValue (z.platform p) data) →
    (now - (scoreSummary d (z.clock now) row).lastUpdated).tdiv 1000000000 =
        (now - t * 1000000000).tdiv 1000000000 ∧
      (scoreSummary d (z.clock now) row).status =
        if (now - t * 1000000000).tdiv 1000000000 > 60 then .offline else .online
  bucket : 0 ≤ t → ∀ row, textAt row 1 = d.fetch (z.bucket (intParam interval) (intParam interval)
      (MysqlWriter.timestampValue (z.platform p) data)) →
    timeAt (z.clock now) row 1 = t / interval * interval * 1000000000

variable {z d p data now t interval}

theorem localTime_ne_nil (t : ℤ) : z.localTime t ≠ "" := by
  intro h
  have hlist := congrArg String.toList h
  rw [Zone.localTime, strftime, String.toList_ofList] at hlist
  exact absurd hlist (by simp)

/-- What is read of the text of a time, at any position of a row. -/
theorem timeAt_localTime {row : List String} {index : ℕ} (h : textAt row index = z.localTime t) :
    timeAt (z.clock now) row index = parseTimeString (z.clock now) (z.localTime t) := by
  rw [timeAt, h, if_neg (localTime_ne_nil t)]

/-- The bucket of a time that is found again. -/
theorem bucket_localTime (ht : Fits t) (hepoch : 0 ≤ t) (h : Unambiguous z.offset t) :
    z.bucket (intParam interval) (intParam interval) (.text (z.localTime t)) =
      .text (z.localTime (t / interval * interval)) := by
  simp only [intParam, Zone.bucket, Zone.unixTimestamp_localTime ht hepoch h]

/-- The beginning of a bucket is between 1970 and the time. -/
theorem fits_bucket (ht : Fits t) (hepoch : 0 ≤ t) (hinterval : 0 < interval) :
    Fits (t / interval * interval) := by
  have hle := Int.ediv_mul_le t hinterval.ne'
  have hnonneg : 0 ≤ t / interval * interval :=
    mul_nonneg (Int.ediv_nonneg hepoch hinterval.le) hinterval.le
  exact ⟨by omega, (by omega : t / interval * interval * 1000000000 ≤ t * 1000000000).trans_lt
    ht.2⟩

/-- **The time of a row survives** exactly when daylight saving is not in force at it, nor makes
what the clock shows at the beginning of its bucket something else than standard time. For every
zone, and every time in whole seconds of which the local time is unambiguous. -/
theorem survives_iff (ht : Fits t) (hunambiguous : Unambiguous z.offset t)
    (hdata : data.hostScore.timestamp = t * 1000000000) (hinterval : 0 < interval) :
    Survives z d p data now t interval ↔
      z.isDst t = false ∧ (0 ≤ t → z.InStandardTime (t / interval * interval)) := by
  have hformat : formatTimePoint (z.platform p) (t * 1000000000) = z.localTime t := by
    rw [formatTimePoint, Int.mul_tdiv_cancel _ (by decide)]
    rfl
  have hwritten : MysqlWriter.timestampValue (z.platform p) data = .text (z.localTime t) := by
    rw [MysqlWriter.timestampValue, hdata, Int.mul_ediv_cancel _ (by decide)]
    rfl
  rw [← Zone.inStandardTime_iff hunambiguous]
  constructor
  · intro h
    refine ⟨(Zone.parseTimeString_localTime_iff ht now).mp (hformat ▸ h.parsed), fun hepoch => ?_⟩
    -- a row of the trend
    have hrow : textAt ["", z.localTime (t / interval * interval)] 1 =
        z.localTime (t / interval * interval) := rfl
    have hbegin := h.bucket hepoch ["", z.localTime (t / interval * interval)]
      (by rw [hwritten, bucket_localTime ht hepoch hunambiguous, d.fetch_text]; rfl)
    rw [timeAt_localTime hrow] at hbegin
    exact (Zone.parseTimeString_localTime_iff (fits_bucket ht hepoch hinterval) now).mp hbegin
  · rintro ⟨hstandard, hbegin⟩
    have hparsed := (Zone.parseTimeString_localTime_iff ht now).mpr hstandard
    have htime : ∀ row index,
        textAt row index = d.fetch (MysqlWriter.timestampValue (z.platform p) data) →
          timeAt (z.clock now) row index = t * 1000000000 := by
      intro row index hrow
      rw [hwritten, d.fetch_text] at hrow
      rw [timeAt_localTime hrow, hparsed]
    refine ⟨by rw [hformat, hparsed], htime, fun row hrow => ?_, fun hepoch row hrow => ?_⟩
    · have hlast : (scoreSummary d (z.clock now) row).lastUpdated = t * 1000000000 :=
        htime row 2 hrow
      refine ⟨by rw [hlast], ?_⟩
      rw [← hlast]
      rfl
    · rw [hwritten, bucket_localTime ht hepoch hunambiguous, d.fetch_text] at hrow
      rw [timeAt_localTime hrow]
      exact (Zone.parseTimeString_localTime_iff (fits_bucket ht hepoch hinterval) now).mpr
        (hbegin hepoch)

/-- A zone an hour ahead of Greenwich, and two hours in the summer of 2024. -/
def oneSummer : Zone where
  offset t := if 1711846800 ≤ t ∧ t < 1729990800 then 7200 else 3600
  isDst t := decide (1711846800 ≤ t ∧ t < 1729990800)
  readOffset isdst reading :=
    if isdst = 0 then 3600
    else if 0 < isdst ∨ 1711850400 ≤ reading ∧ reading < 1729998000 then 7200 else 3600
  abs_offset_lt t := by split <;> decide
  abs_readOffset_lt isdst reading := by split_ifs <;> decide
  readOffset_zero t _ := by
    rw [if_pos rfl, decide_eq_false_iff_not]
    split <;> simp_all
  readOffset_neg isdst hneg t h := by
    rw [if_neg hneg.ne]
    by_cases hsummer : 1711846800 ≤ t ∧ t < 1729990800
    · rw [if_pos hsummer, if_pos (by omega)]
    · rw [if_neg hsummer, if_neg]
      rintro (hpos | hread)
      · omega
      · -- the hour that comes twice
        have htwice := h (t - 3600)
        dsimp only at htwice
        rw [if_neg hsummer, if_pos (by omega)] at htwice
        omega

example : oneSummer.localTime 1705316400 = "2024-01-15 12:00:00" := by decide

/-- The hour that comes twice is not reached. -/
theorem unambiguous_oneSummer {t : ℤ} (h : t < 1729987200) :
    Unambiguous oneSummer.offset t := by
  intro u hu
  simp only [oneSummer] at hu
  split at hu <;> split at hu <;> omega

/-- What is written of an empty push at a time. -/
def pushedAt (t : ℤ) : HostMonitoringData := monitoringData .exact {} {} (t * 1000000000) {}

/-- Noon, on the fifteenth of January 2024. -/
theorem survives_winter :
    Survives oneSummer .reference .exact (pushedAt 1705316400) 0 1705316400 60 :=
  (survives_iff (by decide) (unambiguous_oneSummer (by decide)) rfl (by decide)).mpr
    ⟨by decide, by decide⟩

/-- Noon, on the fifteenth of July 2024: the time that is read is an hour later. -/
theorem survives_summer_fails :
    Unambiguous oneSummer.offset 1721037600 ∧
      parseTimeString (oneSummer.clock 0) (oneSummer.localTime 1721037600) =
        1721041200 * 1000000000 ∧
      ¬Survives oneSummer .reference .exact (pushedAt 1721037600) 0 1721037600 60 := by
  have ht : Fits 1721037600 := by decide
  have hread : parseTimeString (oneSummer.clock 0) (oneSummer.localTime 1721037600) =
      1721041200 * 1000000000 :=
    (congrArg fromTimeT (Zone.timeOf_localTime ht)).trans (by decide)
  refine ⟨unambiguous_oneSummer (by decide), hread, fun h => ?_⟩
  have hparsed : parseTimeString (oneSummer.clock 0) (oneSummer.localTime 1721037600) =
      1721037600 * 1000000000 := h.parsed
  rw [hread] at hparsed
  exact absurd hparsed (by decide)

end Rows

end MonitorSystem
