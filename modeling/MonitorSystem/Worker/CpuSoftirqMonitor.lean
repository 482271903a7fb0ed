import MonitorSystem.Library.Keyed
import MonitorSystem.Manager.ClusterStatistics
import MonitorSystem.Manager.ConfigLoading
import MonitorSystem.Worker.CpuStatCollector
import Mathlib.Data.Nat.Log
import Mathlib.Data.UInt

/-!
# The rates of the soft interrupts

`update_softirq_stats` (`worker/src/kmod/SoftirqCollector.c`) writes the counts of the soft
interrupts of a processor, which the kernel keeps in 32 bits, into fields of 64 bits.
`CpuSoftIrqMonitor::updateOnce` (`worker/src/monitor/CpuSoftirqMonitor.cpp`) subtracts in 64 bits
what it has read before, divides by the seconds in doubles, and truncates the quotient; the message
keeps it as a float.

The difference of 64 bits is not that of a counter of 32 bits that has started again from zero.
Without that, the published rate is the whole part of the exact one, if a float holds it and the
rounding of the seconds does not miss a whole rate (`softIrq_rate_iff`).
-/

namespace MonitorSystem

/-! ### The rate of a counter -/

/-- `duration / 1000.0`: milliseconds in seconds. -/
def seconds (duration : ℤ) : ℚ := binary64 (binary64 duration / 1000)

/-- `static_cast<int64_t>` of a double. One that is out of range is undefined, and becomes the least
number on the machine. -/
def castInt64 (q : ℚ) : Int64 :=
  let n := if 0 ≤ q then ⌊q⌋ else ⌈q⌉
  if -2 ^ 63 ≤ n ∧ n < 2 ^ 63 then Int64.ofInt n else Int64.minValue

/-- The rate of a counter: the old count is converted for the subtraction, and the difference for
the division. -/
def softIrqRate (now : UInt64) (old : Int64) (duration : ℤ) : Int64 :=
  castInt64 (binary64 (binary64 (now - old.toUInt64).toNat / seconds duration))

theorem castInt64_of_lt {q : ℚ} (hq : 0 ≤ q) (hlt : q < 2 ^ 63) : (castInt64 q).toInt = ⌊q⌋ := by
  have hfloor : 0 ≤ ⌊q⌋ := Int.floor_nonneg.mpr hq
  have hfloor' : ⌊q⌋ < 2 ^ 63 := Int.floor_lt.mpr (by exact_mod_cast hlt)
  simp only [castInt64, if_pos hq]
  rw [if_pos ⟨by omega, hfloor'⟩, Int64.toInt_ofInt_of_le (by omega) hfloor']

theorem castInt64_of_ge {q : ℚ} (hq : 2 ^ 63 ≤ q) : (castInt64 q).toInt = -2 ^ 63 := by
  have hpos : 0 ≤ q := le_trans (by norm_num) hq
  have hfloor : 2 ^ 63 ≤ ⌊q⌋ := Int.le_floor.mpr (by exact_mod_cast hq)
  simp only [castInt64, if_pos hpos]
  rw [if_neg (by omega)]
  rfl

/-! ### The seconds as a double -/

theorem seconds_natCast {ms : ℕ} (h : ms < 2 ^ 53) : seconds ms = binary64 (ms / 1000) := by
  rw [seconds, Int.cast_natCast, binary64_natCast h]

/-- Seconds are rounded by a small share. -/
theorem seconds_mem {ms : ℕ} (h : ms < 2 ^ 53) :
    (1 - 1 / 2 ^ 53) * ((ms : ℚ) / 1000) ≤ seconds ms ∧
      seconds ms ≤ (1 + 1 / 2 ^ 53) * ((ms : ℚ) / 1000) := by
  rw [seconds_natCast h]
  exact binary64_mem (by positivity)

theorem seconds_pos {ms : ℕ} (hpos : 0 < ms) (h : ms < 2 ^ 53) : 0 < seconds ms := by
  have hms : (0 : ℚ) < (ms : ℚ) / 1000 := by positivity
  have hle := (seconds_mem h).1
  norm_num at hle
  linarith

section Quotient

variable {x ms : ℕ}

/-- The quotient, before it is rounded, times the milliseconds. -/
theorem quotient_mem (hpos : 0 < ms) (hms : ms < 2 ^ 53) (x : ℚ) (hx : 0 ≤ x) :
    (1 - 1 / 2 ^ 53) * (x / seconds ms * ms) ≤ 1000 * x ∧
      1000 * x ≤ (1 + 1 / 2 ^ 53) * (x / seconds ms * ms) := by
  have hseconds := seconds_pos hpos hms
  obtain ⟨hlow, hhigh⟩ := seconds_mem hms
  have hquot : 0 ≤ x / seconds ms := div_nonneg hx hseconds.le
  have hx : x / seconds ms * seconds ms = x := div_mul_cancel₀ x hseconds.ne'
  have hlow' := mul_le_mul_of_nonneg_left hlow hquot
  have hhigh' := mul_le_mul_of_nonneg_left hhigh hquot
  rw [hx] at hlow' hhigh'
  constructor <;> linarith

/-- A double times the milliseconds. -/
theorem binary64_mul_mem {q : ℚ} (hq : 0 ≤ q) (ms : ℕ) :
    (1 - 1 / 2 ^ 53) * (q * ms) ≤ binary64 q * ms ∧
      binary64 q * ms ≤ (1 + 1 / 2 ^ 53) * (q * ms) := by
  obtain ⟨hlow, hhigh⟩ := binary64_mem hq
  have hmsq : (0 : ℚ) ≤ ms := Nat.cast_nonneg ms
  rw [← mul_assoc, ← mul_assoc]
  exact ⟨mul_le_mul_of_nonneg_right hlow hmsq, mul_le_mul_of_nonneg_right hhigh hmsq⟩

/-- **The double of the rate**, times the milliseconds, is close to the exact product. -/
theorem abs_binary64_quotient_sub_lt (hpos : 0 < ms) (hms : ms < 2 ^ 53) (hx : x < 2 ^ 32) :
    |binary64 (x / seconds ms) * ms - 1000 * x| < 1 := by
  obtain ⟨hlow, hhigh⟩ := quotient_mem hpos hms x (Nat.cast_nonneg x)
  have hquot : 0 ≤ (x : ℚ) / seconds ms := div_nonneg (Nat.cast_nonneg x) (seconds_pos hpos hms).le
  obtain ⟨hbelow, habove⟩ := binary64_mul_mem hquot ms
  have hxq : (x : ℚ) < 4294967296 := by exact_mod_cast hx
  generalize binary64 (x / seconds ms) * ms = rounded at hbelow habove ⊢
  generalize (x : ℚ) / seconds ms * ms = exactly at hlow hhigh hbelow habove
  norm_num at hlow hhigh hbelow habove
  rw [abs_lt]
  constructor <;> linarith only [hlow, hhigh, hbelow, habove, hxq]

/-- **A rate that is not whole is truncated** to its whole part. -/
theorem floor_quotient_of_not_dvd (hpos : 0 < ms) (hms : ms < 2 ^ 53) (hx : x < 2 ^ 32)
    (h : ¬ms ∣ x * 1000) : ⌊binary64 (x / seconds ms)⌋ = (x * 1000 / ms : ℕ) := by
  obtain ⟨hlow, hhigh⟩ := abs_lt.mp (abs_binary64_quotient_sub_lt hpos hms hx)
  have hdiv := Nat.div_add_mod (x * 1000) ms
  have hmod := Nat.mod_lt (x * 1000) hpos
  have hmod' : 0 < x * 1000 % ms := Nat.pos_of_ne_zero fun hzero => h (Nat.dvd_of_mod_eq_zero hzero)
  generalize x * 1000 / ms = k at hdiv ⊢
  have hmsq : (0 : ℚ) < ms := Nat.cast_pos.mpr hpos
  have hbelow : (ms : ℚ) * k + 1 ≤ 1000 * x := by
    exact_mod_cast (by omega : ms * k + 1 ≤ 1000 * x)
  have habove : (1000 : ℚ) * x + 1 ≤ ms * (k + 1) := by
    exact_mod_cast (by rw [Nat.mul_add]; omega : 1000 * x + 1 ≤ ms * (k + 1))
  rw [Int.floor_eq_iff]
  constructor
  · refine le_of_mul_le_mul_right ?_ hmsq
    push_cast
    linarith
  · refine lt_of_mul_lt_mul_right ?_ hmsq.le
    push_cast
    linarith

/-- A whole rate is kept, or missed by one. -/
theorem floor_quotient_of_eq {k : ℕ} (hpos : 0 < ms) (hms : ms < 2 ^ 53) (hx : x < 2 ^ 32)
    (h : x * 1000 = ms * k) :
    ⌊binary64 (x / seconds ms)⌋ =
      if (k : ℚ) ≤ binary64 (x / seconds ms) then (k : ℤ) else k - 1 := by
  obtain ⟨hlow, hhigh⟩ := abs_lt.mp (abs_binary64_quotient_sub_lt hpos hms hx)
  have hmsq : (1 : ℚ) ≤ ms := by exact_mod_cast hpos
  have hxq : (1000 : ℚ) * x = ms * k := by exact_mod_cast (by omega : 1000 * x = ms * k)
  have habove : binary64 (x / seconds ms) < k + 1 := by
    refine lt_of_mul_lt_mul_right (a := (ms : ℚ)) ?_ (by linarith)
    linarith
  have hbelow : (k : ℚ) - 1 < binary64 (x / seconds ms) := by
    refine lt_of_mul_lt_mul_right (a := (ms : ℚ)) ?_ (by linarith)
    linarith
  rw [Int.floor_eq_iff]
  split
  · next hle => exact ⟨by exact_mod_cast hle, by exact_mod_cast habove⟩
  · next hlt =>
    push_cast
    exact ⟨hbelow.le, by linarith [not_le.mp hlt]⟩

/-- **A whole rate is reached**: the double of the seconds is not so much too long that the quotient
is closer to the double below. These are 2^-53 of the least power of two from the rate on apart. -/
def Reached (ms k : ℕ) : Prop :=
  (k : ℚ) * (seconds ms - ms / 1000) ≤ 2 ^ Nat.clog 2 k / 2 ^ 54 * seconds ms

instance decidableReached (ms k : ℕ) : Decidable (Reached ms k) :=
  inferInstanceAs (Decidable ((k : ℚ) * (seconds ms - ms / 1000) ≤ _))

/-- Of 17 interrupts in 17 milliseconds, the rate of a thousand is missed. -/
example : ¬Reached 17 1000 := by decide +kernel

/-- A whole number is rounded to from half a place below. -/
theorem natCast_le_binary64_iff {y : ℚ} (hy : 0 < y) (hlt : y < 2 ^ 52) (k : ℕ) :
    (k : ℚ) ≤ binary64 y ↔ k - Digits.place 2 53 y / 2 ≤ y := by
  have hlog : Int.log 2 y < 52 := (Int.lt_zpow_iff_log_lt (by decide) hy).mp (by exact_mod_cast hlt)
  obtain ⟨i, hi⟩ := Int.eq_ofNat_of_zero_le (show 0 ≤ 51 - Int.log 2 y by omega)
  have hplace : Digits.place 2 53 y = (2 : ℚ) ^ (-((i : ℤ) + 1)) := by
    rw [Digits.place, abs_of_pos hy]
    congr 1
    push_cast
    omega
  refine Digits.le_round_iff (m := k * 2 ^ (i + 1)) (by decide) ⟨k * 2 ^ i, by ring⟩ ?_
  rw [hplace, zpow_neg]
  push_cast
  rw [mul_assoc, ← Nat.cast_succ, zpow_natCast, mul_inv_cancel₀ (by positivity), mul_one]

/-- A number just below a whole one is not below the power of two below it. -/
theorem log_of_lt {y : ℚ} {k : ℕ} (hy : 0 < y) (hlow : (k : ℚ) ≤ (1 + 1 / 2 ^ 53) * y)
    (hlt : y < k) (hk : k < 2 ^ 53) : Int.log 2 y = (Nat.clog 2 k : ℤ) - 1 := by
  have hkq : (k : ℚ) < 9007199254740992 := by exact_mod_cast hk
  have hkpos : 0 < k := by exact_mod_cast hy.trans hlt
  have hkq' : (1 : ℚ) ≤ k := by exact_mod_cast hkpos
  have hupper : y < (2 : ℚ) ^ (Nat.clog 2 k : ℤ) := by
    have hpow : (k : ℚ) ≤ 2 ^ Nat.clog 2 k := by
      exact_mod_cast Nat.le_pow_clog (by decide) k
    rw [zpow_natCast]
    exact hlt.trans_le hpow
  have hlower : (2 : ℚ) ^ ((Nat.clog 2 k : ℤ) - 1) ≤ y := by
    rcases Nat.eq_zero_or_pos (Nat.clog 2 k) with hzero | hclog
    · rw [hzero]
      norm_num at hlow ⊢
      linarith
    · have hpow : 2 ^ (Nat.clog 2 k - 1) < k := Nat.pow_pred_clog_lt_self (by decide) (by
        by_contra hle
        have hone : k = 1 := by omega
        rw [hone] at hclog
        exact absurd hclog (by decide))
      have hexp : ((Nat.clog 2 k : ℤ) - 1) = ((Nat.clog 2 k - 1 : ℕ) : ℤ) := by omega
      have hpow' : (2 : ℚ) ^ (Nat.clog 2 k - 1) + 1 ≤ k := by exact_mod_cast hpow
      rw [hexp, zpow_natCast]
      norm_num at hlow
      linarith
  have hle := (Int.zpow_le_iff_le_log (b := 2) (by decide) hy).mp hlower
  have hlt' := (Int.lt_zpow_iff_log_lt (b := 2) (by decide) hy).mp hupper
  omega

/-- The doubles from a whole number on down to the power of two below it. -/
theorem place_of_lt {y : ℚ} {k : ℕ} (hy : 0 < y) (hlow : (k : ℚ) ≤ (1 + 1 / 2 ^ 53) * y)
    (hlt : y < k) (hk : k < 2 ^ 53) : Digits.place 2 53 y = 2 ^ Nat.clog 2 k / 2 ^ 53 := by
  have hexp : (Nat.clog 2 k : ℤ) - 1 - (53 : ℕ) + 1 = (Nat.clog 2 k : ℤ) - (53 : ℕ) := by
    push_cast
    omega
  rw [Digits.place, abs_of_pos hy, log_of_lt hy hlow hlt hk, hexp, zpow_sub₀ (by norm_num),
    zpow_natCast, zpow_natCast]
  push_cast
  rfl

theorem le_binary64_quotient_iff {k : ℕ} (hpos : 0 < ms) (hms : ms < 2 ^ 53) (hx : x < 2 ^ 32)
    (h : x * 1000 = ms * k) : (k : ℚ) ≤ binary64 (x / seconds ms) ↔ Reached ms k := by
  have hseconds := seconds_pos hpos hms
  have hmsq : (1 : ℚ) ≤ ms := by exact_mod_cast hpos
  have hxq : (x : ℚ) = k * (ms / 1000) := by
    have hxq' : (x : ℚ) * 1000 = ms * k := by exact_mod_cast h
    linarith
  have hk : k < 2 ^ 42 := by
    have hle : k ≤ ms * k := Nat.le_mul_of_pos_left k hpos
    omega
  rcases Nat.eq_zero_or_pos k with rfl | hkpos
  · -- nothing has been counted
    obtain rfl : x = 0 := by omega
    simp only [Reached, Nat.cast_zero, zero_div, zero_mul]
    refine iff_of_true (by rw [binary64, Digits.round_zero Digits.isNearest_halfEven]) ?_
    positivity
  have hxpos : 0 < x := by
    have := Nat.mul_pos hpos hkpos
    omega
  have hy : 0 < (x : ℚ) / seconds ms := div_pos (Nat.cast_pos.mpr hxpos) hseconds
  have hmul : (x : ℚ) / seconds ms * seconds ms = x := div_mul_cancel₀ _ hseconds.ne'
  obtain ⟨hlow, hhigh⟩ := quotient_mem hpos hms x (Nat.cast_nonneg x)
  have hlow' : (k : ℚ) ≤ (1 + 1 / 2 ^ 53) * (x / seconds ms) := by
    refine le_of_mul_le_mul_right (a := (ms : ℚ)) ?_ (by linarith)
    linarith
  have hhigh' : (1 - 1 / 2 ^ 53) * ((x : ℚ) / seconds ms) ≤ k := by
    refine le_of_mul_le_mul_right (a := (ms : ℚ)) ?_ (by linarith)
    linarith
  have hkq : (k : ℚ) < 4398046511104 := by exact_mod_cast hk
  rw [natCast_le_binary64_iff hy (by norm_num at hhigh' ⊢; linarith)]
  have hclog : (0 : ℚ) < 2 ^ Nat.clog 2 k := by positivity
  rcases lt_or_ge ((x : ℚ) / seconds ms) k with hlt | hge
  · rw [place_of_lt hy hlow' hlt (by omega), Reached, le_div_iff₀ hseconds, hxq]
    constructor <;> intro hle <;> linarith
  · have hplace := Digits.place_pos (b := 2) (by decide) 53 ((x : ℚ) / seconds ms)
    refine iff_of_true (by linarith) ?_
    have hle : (k : ℚ) * seconds ms ≤ k * (ms / 1000) := by
      rw [← hxq, ← hmul]
      exact mul_le_mul_of_nonneg_right hge hseconds.le
    have hnonneg : (0 : ℚ) ≤ 2 ^ Nat.clog 2 k / 2 ^ 54 * seconds ms := by positivity
    rw [Reached, mul_sub]
    linarith

end Quotient

/-! ### Two readings of a counter -/

section Readings

variable (old now : UInt32) (ms : ℕ)

/-- What a counter of 32 bits has gained. -/
def gained : ℕ := (now - old).toNat

/-- The whole part of the exact rate. -/
def exactRate : ℕ := gained old now * 1000 / ms

/-- A published rate is right. -/
structure RateRight (published : ℚ) : Prop where
  nonneg : 0 ≤ published
  eq : published = exactRate old now ms

/-- **What it takes**: the counter has not started again, a float holds the rate, and a rate that is
whole is reached, or missed by so little that a float cannot tell. -/
structure RateKept : Prop where
  not_wrapped : old ≤ now
  held : Digits.Holds 2 24 (exactRate old now ms)
  reached : ms ∣ gained old now * 1000 →
    Reached ms (exactRate old now ms) ∨ binary32 (exactRate old now ms - 1) = exactRate old now ms

variable {old now ms}

theorem toNat_sub_of_le (h : old ≤ now) :
    (now.toUInt64 - old.toUInt64.toInt64.toUInt64).toNat = gained old now := by
  rw [UInt64.toUInt64_toInt64, gained, UInt32.toNat_sub_of_le _ _ h,
    UInt64.toNat_sub_of_le, UInt32.toNat_toUInt64, UInt32.toNat_toUInt64]
  rw [UInt64.le_iff_toNat_le, UInt32.toNat_toUInt64, UInt32.toNat_toUInt64]
  exact UInt32.le_iff_toNat_le.mp h

/-- **The difference of 64 bits**, where the counter has started again, is too large by what it has
not in 32 bits. -/
theorem toNat_sub_of_lt (h : now < old) :
    (now.toUInt64 - old.toUInt64.toInt64.toUInt64).toNat + 2 ^ 32 = gained old now + 2 ^ 64 := by
  have hlt := UInt32.lt_iff_toNat_lt.mp h
  have hold := old.toNat_lt
  rw [UInt64.toUInt64_toInt64, gained, UInt64.toNat_sub, UInt32.toNat_sub,
    UInt32.toNat_toUInt64, UInt32.toNat_toUInt64]
  omega

/-- The rate of a counter that has not started again. -/
theorem toInt_softIrqRate_of_le (hpos : 0 < ms) (hms : ms < 2 ^ 53) (h : old ≤ now) :
    (softIrqRate now.toUInt64 old.toUInt64.toInt64 ms).toInt =
      ⌊binary64 (gained old now / seconds ms)⌋ := by
  have hlt : gained old now < 2 ^ 32 := (now - old).toNat_lt
  have hclose := abs_lt.mp (abs_binary64_quotient_sub_lt hpos hms hlt)
  have hseconds := seconds_pos hpos hms
  have hquot : 0 ≤ (gained old now : ℚ) / seconds ms := by positivity
  have hmsq : (1 : ℚ) ≤ ms := by exact_mod_cast hpos
  have hltq : (gained old now : ℚ) < 4294967296 := by exact_mod_cast hlt
  have hnonneg := binary64_nonneg hquot
  rw [softIrqRate, toNat_sub_of_le h, binary64_natCast (by omega)]
  refine castInt64_of_lt hnonneg ?_
  have hle := le_mul_of_one_le_right hnonneg hmsq
  norm_num
  linarith [hclose.2]

/-- **A counter that has started again** is published with a negative rate, or with one that is much
too high. -/
theorem not_rateRight_of_lt (hpos : 0 < ms) (hms : ms * 1000000 < 2 ^ 63) (h : now < old) :
    ¬RateRight old now ms
      (binary32 (softIrqRate now.toUInt64 old.toUInt64.toInt64 ms).toInt) := by
  intro hright
  have hms' : ms < 2 ^ 53 := by omega
  have hseconds := seconds_pos hpos hms'
  have hlt : gained old now < 2 ^ 32 := (now - old).toNat_lt
  have hgained := toNat_sub_of_lt h
  unfold softIrqRate at hright
  generalize (now.toUInt64 - old.toUInt64.toInt64.toUInt64).toNat = difference at hgained hright
  have hdifference : (18446744069414584320 : ℚ) ≤ difference := by
    exact_mod_cast (by omega : 18446744069414584320 ≤ difference)
  have hmsq : (1 : ℚ) ≤ ms := by exact_mod_cast hpos
  have hmsq' : (ms : ℚ) * 1000000 < 9223372036854775808 := by exact_mod_cast hms
  -- the double of the quotient, times the milliseconds
  have hlarge : (9223372036854775808 : ℚ) ≤ binary64 difference := by
    have hlow := (binary64_mem (Nat.cast_nonneg (α := ℚ) difference)).1
    norm_num at hlow
    linarith only [hlow, hdifference]
  generalize binary64 (difference : ℚ) = dividend at hlarge hright
  obtain ⟨hlow, hhigh⟩ := quotient_mem hpos hms' dividend (by linarith)
  have hquot : 0 ≤ dividend / seconds ms := div_nonneg (by linarith) hseconds.le
  have hproduct : (9000000000000000000000 : ℚ) ≤ binary64 (dividend / seconds ms) * ms := by
    have hbelow := (binary64_mul_mem hquot ms).1
    norm_num at hhigh hbelow
    linarith only [hlarge, hhigh, hbelow]
  generalize binary64 (dividend / seconds ms) = q at hproduct hright
  have hqpos : 0 ≤ q := nonneg_of_mul_nonneg_left (by linarith) (by linarith : (0 : ℚ) < ms)
  rcases lt_or_ge q (2 ^ 63) with hsmall | hbig
  · rw [castInt64_of_lt hqpos hsmall] at hright
    have hfloor := Int.lt_floor_add_one q
    have hfloorpos : (0 : ℚ) ≤ ⌊q⌋ := by exact_mod_cast Int.floor_nonneg.mpr hqpos
    have hfloat := (binary32_mem hfloorpos).1
    rw [hright.eq] at hfloat
    have hexact : (exactRate old now ms : ℚ) * ms ≤ 4294967296000 := by
      have hle : exactRate old now ms * ms ≤ gained old now * 1000 := Nat.div_mul_le_self _ _
      exact_mod_cast (by omega : exactRate old now ms * ms ≤ 4294967296000)
    have hfloat' : (1 - 1 / 2 ^ 24) * (q - 1) ≤ exactRate old now ms :=
      (mul_le_mul_of_nonneg_left (by linarith only [hfloor]) (by norm_num)).trans hfloat
    have hscaled := mul_le_mul_of_nonneg_right hfloat' (by linarith : (0 : ℚ) ≤ ms)
    norm_num at hscaled
    linarith
  · rw [castInt64_of_ge hbig] at hright
    have hheld : Digits.Holds 2 24 (((-2 ^ 63 : ℤ) : ℚ)) := ⟨-1, 63, by norm_num, by norm_num⟩
    have hneg := hright.nonneg
    rw [binary32_eq_self_iff.mpr hheld] at hneg
    norm_num at hneg

/-- **The published rate is right** exactly when the counter has not started again, and the floats
keep the rate. -/
theorem rateRight_iff (hpos : 0 < ms) (hms : ms * 1000000 < 2 ^ 63) :
    RateRight old now ms (binary32 (softIrqRate now.toUInt64 old.toUInt64.toInt64 ms).toInt) ↔
      RateKept old now ms := by
  by_cases hle : old ≤ now
  swap
  · exact iff_of_false (not_rateRight_of_lt hpos hms (UInt32.not_le.mp hle)) fun h =>
      hle h.not_wrapped
  have hms' : ms < 2 ^ 53 := by omega
  have hgained : gained old now < 2 ^ 32 := (now - old).toNat_lt
  have hright : ∀ q : ℚ, RateRight old now ms q ↔ q = exactRate old now ms :=
    fun q => ⟨RateRight.eq, fun heq => ⟨heq ▸ Nat.cast_nonneg _, heq⟩⟩
  rw [toInt_softIrqRate_of_le hpos hms' hle, hright]
  by_cases hdvd : ms ∣ gained old now * 1000
  · have heq : gained old now * 1000 = ms * exactRate old now ms :=
      (Nat.mul_div_cancel' hdvd).symm
    rw [floor_quotient_of_eq hpos hms' hgained heq]
    split
    · next hreached =>
      have hreached' := (le_binary64_quotient_iff hpos hms' hgained heq).mp hreached
      rw [Int.cast_natCast, binary32_eq_self_iff]
      exact ⟨fun h => ⟨hle, h, fun _ => .inl hreached'⟩, RateKept.held⟩
    · next hmissed =>
      rw [le_binary64_quotient_iff hpos hms' hgained heq] at hmissed
      push_cast
      constructor
      · intro h
        exact ⟨hle, h ▸ Digits.holds_round Digits.isNearest_halfEven (by decide) (by decide) _,
          fun _ => .inr h⟩
      · intro h
        exact (h.reached hdvd).resolve_left hmissed
  · rw [floor_quotient_of_not_dvd hpos hms' hgained hdvd, Int.cast_natCast]
    change binary32 (exactRate old now ms : ℚ) = _ ↔ _
    rw [binary32_eq_self_iff]
    exact ⟨fun h => ⟨hle, h, fun hdvd' => absurd hdvd' hdvd⟩, RateKept.held⟩

end Readings

/-! ### The two programs -/

/-- The types of soft interrupts. -/
inductive SoftIrqType
  | hi | timer | netTx | netRx | block | irqPoll | tasklet | sched | hrtimer | rcu
  deriving DecidableEq, Repr

/-- The field of a message for a type. -/
def SoftIrq.count (msg : SoftIrq) : SoftIrqType → ℚ
  | .hi => msg.hi
  | .timer => msg.timer
  | .netTx => msg.netTx
  | .netRx => msg.netRx
  | .block => msg.block
  | .irqPoll => msg.irqPoll
  | .tasklet => msg.tasklet
  | .sched => msg.sched
  | .hrtimer => msg.hrtimer
  | .rcu => msg.rcu

/-- `softirq_stat`: an entry of the shared memory. -/
structure SoftirqStat where
  cpuName : String
  counts : SoftIrqType → UInt64

/-- The entry of a processor, with the counts that `kstat_softirqs_cpu` returns. -/
def softirqStat (kstat : ℕ → SoftIrqType → UInt32) (cpu : ℕ) : SoftirqStat :=
  ⟨cpuName cpu, fun type => (kstat cpu type).toUInt64⟩

/-- **`update_softirq_stats`**: the same array as that of the times, with as many entries. -/
def updateSoftirqStats (kstat : ℕ → SoftIrqType → UInt32) (cpus : List ℕ) : List SoftirqStat :=
  (cpus.take maxCpus).map (softirqStat kstat) ++
    if (cpus.take maxCpus).length < maxCpus then [⟨"", fun _ => 0⟩] else []

namespace CpuSoftIrqMonitor

/-- `MAX_CPUS`: how many entries are read. -/
def maxCpus : ℕ := 256

/-- The counts that are kept of a processor, with their time in nanoseconds. -/
structure Cached where
  counts : SoftIrqType → Int64
  timepoint : ℤ

/-- What a field is set to: the rate since the last time, or the count if there is none. -/
def field (now : ℤ) (stat : SoftirqStat) (last : Option Cached) (type : SoftIrqType) : ℚ :=
  match last with
  | none => binary32 (stat.counts type).toNat
  | some cached =>
    let duration := (now - cached.timepoint).tdiv 1000000
    if 0 < seconds duration then
      binary32 (softIrqRate (stat.counts type) (cached.counts type) duration).toInt
    else binary32 (stat.counts type).toNat

/-- The message of an entry. -/
def publish (now : ℤ) (stat : SoftirqStat) (last : Option Cached) : SoftIrq where
  cpu := stat.cpuName
  hi := field now stat last .hi
  timer := field now stat last .timer
  netTx := field now stat last .netTx
  netRx := field now stat last .netRx
  block := field now stat last .block
  irqPoll := field now stat last .irqPoll
  tasklet := field now stat last .tasklet
  sched := field now stat last .sched
  hrtimer := field now stat last .hrtimer
  rcu := field now stat last .rcu

/-- What is kept of an entry. -/
def cache (now : ℤ) (stat : SoftirqStat) : Cached :=
  ⟨fun type => (stat.counts type).toInt64, now⟩

/-- The entries that the loop comes to. -/
def readStats (stats : List SoftirqStat) : List SoftirqStat :=
  (stats.take maxCpus).takeWhile fun stat => stat.cpuName ≠ ""

/-- **`updateOnce`**, with the counts that are kept (`cpuSoftIrqs_`). Nothing is done if the device
cannot be opened or mapped. -/
def updateOnce (last : String → Option Cached) (now : ℤ) :
    Option (List SoftirqStat) → (String → Option Cached) × List SoftIrq
  | none => (last, [])
  | some stats =>
    let r := Keyed.run SoftirqStat.cpuName
      (fun l stat => (some (cache now stat), publish now stat l)) last (readStats stats)
    (r.1, r.2.map (·.2))

theorem count_publish (now : ℤ) (stat : SoftirqStat) (last : Option Cached) (type : SoftIrqType) :
    (publish now stat last).count type = field now stat last type := by
  cases type <;> rfl

/-- **Every exported processor is read**, and has one message. -/
theorem updateOnce_of_mem (last : String → Option Cached) (now : ℤ)
    (kstat : ℕ → SoftIrqType → UInt32) {cpus : List ℕ} (hnodup : cpus.Nodup) {cpu : ℕ}
    (hcpu : cpu ∈ cpus.take MonitorSystem.maxCpus) :
    ((updateOnce last now (some (updateSoftirqStats kstat cpus))).2.filter
        fun msg => msg.cpu = cpuName cpu) =
        [publish now (softirqStat kstat cpu) (last (cpuName cpu))] ∧
      (updateOnce last now (some (updateSoftirqStats kstat cpus))).1 (cpuName cpu) =
        some (cache now (softirqStat kstat cpu)) := by
  have hentry : ∀ cpu, (softirqStat kstat cpu).cpuName ≠ "" := fun cpu => cpuName_ne_nil cpu
  have hread : readStats (updateSoftirqStats kstat cpus) =
      (cpus.take MonitorSystem.maxCpus).map (softirqStat kstat) :=
    takeWhile_take_exported hentry rfl (le_refl MonitorSystem.maxCpus) cpus
  have hone : ((cpus.take MonitorSystem.maxCpus).map (softirqStat kstat)).filter
      (fun stat => stat.cpuName = cpuName cpu) = [softirqStat kstat cpu] := by
    rw [List.filter_map]
    have hsame : ((fun stat : SoftirqStat => decide (stat.cpuName = cpuName cpu)) ∘
        softirqStat kstat) = fun other => decide (other = cpu) := by
      funext other
      exact decide_eq_decide.mpr cpuName_injective.eq_iff
    rw [hsame, List.filter_eq,
      List.count_eq_one_of_mem (hnodup.sublist (List.take_sublist _ _)) hcpu]
    rfl
  have hshows : ∀ (l : Option Cached) (stat : SoftirqStat),
      (publish now stat l).cpu = cpuName cpu ↔ stat.cpuName = cpuName cpu := fun _ _ => Iff.rfl
  simp only [updateOnce, hread]
  exact Keyed.run_single_shown hshows rfl hone

/-- The messages of a second sample, some whole milliseconds after the first one. -/
def twoUpdates (last : String → Option Cached) (before now : ℕ → SoftIrqType → UInt32)
    (cpus : List ℕ) (t : ℤ) (elapsed : ℕ) : List SoftIrq :=
  (updateOnce (updateOnce last t (some (updateSoftirqStats before cpus))).1 (t + elapsed)
    (some (updateSoftirqStats now cpus))).2

section TwoSamples

variable {cpus : List ℕ} {cpu ms rest : ℕ}

/-- **What the second sample publishes of an exported processor.** -/
theorem twoUpdates_of_mem (last : String → Option Cached)
    (before now : ℕ → SoftIrqType → UInt32) (hnodup : cpus.Nodup)
    (hcpu : cpu ∈ cpus.take MonitorSystem.maxCpus) (t : ℤ) (hpos : 0 < ms) (hrest : rest < 1000000)
    (hms : ms * 1000000 + rest < 2 ^ 63) :
    ∃ msg, (twoUpdates last before now cpus t (ms * 1000000 + rest)).filter
        (fun msg => msg.cpu = cpuName cpu) = [msg] ∧
      ∀ type, msg.count type = binary32 (softIrqRate (now cpu type).toUInt64
        (before cpu type).toUInt64.toInt64 ms).toInt := by
  obtain ⟨-, hkept⟩ := updateOnce_of_mem last t before hnodup hcpu
  obtain ⟨hmsg, -⟩ := updateOnce_of_mem
    (updateOnce last t (some (updateSoftirqStats before cpus))).1
    (t + (ms * 1000000 + rest : ℕ)) now hnodup hcpu
  refine ⟨_, hmsg, fun type => ?_⟩
  have hduration : (t + (ms * 1000000 + rest : ℕ) - t).tdiv 1000000 = ms := by
    rw [add_sub_cancel_left, Int.tdiv_eq_ediv_of_nonneg (by omega)]
    omega
  rw [hkept, count_publish]
  have hseconds : 0 < seconds ms := seconds_pos hpos (by omega)
  simp only [field, cache, softirqStat, hduration, if_pos hseconds]

/-- **The rates of the soft interrupts.** Of every two samples that are at least a millisecond
apart, the second one has one message for each exported processor, and for each type its rate is
right exactly when the counter has not started again in between and the floats keep the rate. -/
theorem softIrq_rate_iff (last : String → Option Cached)
    (before now : ℕ → SoftIrqType → UInt32) (hnodup : cpus.Nodup)
    (hcpu : cpu ∈ cpus.take MonitorSystem.maxCpus) (t : ℤ) (hpos : 0 < ms) (hrest : rest < 1000000)
    (hms : ms * 1000000 + rest < 2 ^ 63) :
    ∃ msg, (twoUpdates last before now cpus t (ms * 1000000 + rest)).filter
        (fun msg => msg.cpu = cpuName cpu) = [msg] ∧
      ∀ type, RateRight (before cpu type) (now cpu type) ms (msg.count type) ↔
        RateKept (before cpu type) (now cpu type) ms := by
  have hms' : ms * 1000000 < 2 ^ 63 := (Nat.le_add_right _ rest).trans_lt hms
  obtain ⟨msg, hmsg, hcount⟩ := twoUpdates_of_mem last before now hnodup hcpu t hpos hrest hms
  refine ⟨msg, hmsg, fun type => ?_⟩
  rw [hcount]
  exact rateRight_iff hpos hms'

/-- Five interrupts in a second. -/
theorem softIrq_rate_five :
    ∃ msg, (twoUpdates (fun _ => none) (fun _ _ => 7) (fun _ _ => 12) [0] 0
        (1000 * 1000000 + 0)).filter (fun msg => msg.cpu = cpuName 0) = [msg] ∧
      ∀ type, RateRight 7 12 1000 (msg.count type) := by
  have hkept : RateKept 7 12 1000 :=
    ⟨by decide, ⟨5, 0, by decide, by decide +kernel⟩, fun _ => .inl (by decide +kernel)⟩
  obtain ⟨msg, hmsg, hrate⟩ := softIrq_rate_iff (fun _ => none) (fun _ _ => 7) (fun _ _ => 12)
    (List.nodup_singleton 0) (List.mem_singleton.mpr rfl) 0 (by decide : 0 < 1000)
    (by decide : 0 < 1000000) (by decide)
  exact ⟨msg, hmsg, fun type => (hrate type).mpr hkept⟩

/-- A counter that has started again, after a single interrupt in a second: the difference of 64
bits is out of range, and the published rate is negative. -/
theorem softIrq_rate_wrapped :
    ∃ msg, (twoUpdates (fun _ => none) (fun _ _ => 4294967295) (fun _ _ => 0) [0] 0
        (1000 * 1000000 + 0)).filter (fun msg => msg.cpu = cpuName 0) = [msg] ∧
      ∀ type, msg.count type = -9223372036854775808 ∧
        ¬RateRight 4294967295 0 1000 (msg.count type) := by
  obtain ⟨msg, hmsg, hcount⟩ := twoUpdates_of_mem (fun _ => none) (fun _ _ => 4294967295)
    (fun _ _ => 0) (List.nodup_singleton 0) (List.mem_singleton.mpr rfl) 0
    (by decide : 0 < 1000) (by decide : 0 < 1000000) (by decide)
  have hnegative : binary32 (softIrqRate (0 : UInt32).toUInt64
      (4294967295 : UInt32).toUInt64.toInt64 1000).toInt = -9223372036854775808 := by
    decide +kernel
  refine ⟨msg, hmsg, fun type => ?_⟩
  have hvalue : msg.count type = -9223372036854775808 := (hcount type).trans hnegative
  refine ⟨hvalue, fun hright => ?_⟩
  have hnonneg := hright.nonneg
  rw [hvalue] at hnonneg
  norm_num at hnonneg

end TwoSamples

end CpuSoftIrqMonitor

end MonitorSystem
