import Mathlib.Algebra.Order.Floor.Ring
import Mathlib.Data.Int.Log
import Mathlib.Data.Rat.Floor
import Mathlib.Tactic.FieldSimp
import Mathlib.Tactic.GCongr
import Mathlib.Tactic.Linarith
import Mathlib.Tactic.Positivity
import Mathlib.Tactic.Ring

/-!
# Rounding to significant digits

A number is kept with `p` digits in base `b`: it is divided by the place value of its last
digit, the quotient is rounded to an integer, and multiplied by the place value again
(`Digits.round`). In base two this is what a floating-point type without bounds on its
exponent does, in base ten what printing with a precision does. How ties are broken is left
open; all that is asked of the rounding to integers is that it is to a nearest one.

What rounding leaves are the numbers that `p` digits hold (`Digits.holds_round`), and these it
keeps as they are (`Digits.Holds.round_eq`). The main result is about two roundings in
different bases: a number survives being rounded to `p'` digits in base `b'` and then to fewer
digits in base `b` if and only if the fewer digits hold it (`Digits.round_round_iff`), although
the first rounding may well change it.
-/

namespace Digits

/-! ### Nearest integers -/

/-- A rule that takes every number to a nearest integer. -/
def IsNearest (near : ℚ → ℤ) : Prop := ∀ q, |(near q : ℚ) - q| ≤ 1 / 2

/-- The nearest integer, the even one of two. -/
def halfEven (q : ℚ) : ℤ :=
  if q - ⌊q⌋ < 1 / 2 then ⌊q⌋
  else if 1 / 2 < q - ⌊q⌋ then ⌊q⌋ + 1
  else ⌊q⌋ + ⌊q⌋ % 2

theorem isNearest_halfEven : IsNearest halfEven := by
  intro q
  have hle := Int.floor_le q
  have hlt := Int.lt_floor_add_one q
  unfold halfEven
  split_ifs with hlow hhigh
  · rw [abs_le]
    constructor <;> linarith
  · push_cast
    rw [abs_le]
    constructor <;> linarith
  · -- a tie: either neighbour is at the same distance
    have htie : q - ⌊q⌋ = 1 / 2 := le_antisymm (not_lt.mp hhigh) (not_lt.mp hlow)
    rcases Int.emod_two_eq_zero_or_one ⌊q⌋ with h | h <;> rw [h] <;> push_cast <;>
      rw [abs_le] <;> constructor <;> linarith

/-- An even number is reached from half below it. -/
theorem le_halfEven_iff {m : ℤ} (hm : Even m) {q : ℚ} : m ≤ halfEven q ↔ (m : ℚ) - 1 / 2 ≤ q := by
  constructor
  · intro hle
    have hnear := (abs_le.mp (isNearest_halfEven q)).2
    have hle' : (m : ℚ) ≤ halfEven q := by exact_mod_cast hle
    linarith
  · intro hq
    have hlt := Int.lt_floor_add_one q
    have hfloor : m - 1 ≤ ⌊q⌋ := by
      rw [Int.le_floor]
      push_cast
      linarith
    unfold halfEven
    rcases hfloor.eq_or_lt with heq | hge
    · -- half of the way is left at most, and the number below is odd
      have hodd : ⌊q⌋ % 2 = 1 := by
        rw [← heq]
        obtain ⟨k, rfl⟩ := hm
        omega
      have heq' : (⌊q⌋ : ℚ) = m - 1 := by exact_mod_cast heq.symm
      split_ifs with hlow hhigh
      · linarith
      · omega
      · omega
    · split_ifs <;> omega

namespace IsNearest

variable {near : ℚ → ℤ} (h : IsNearest near) {q : ℚ} {m : ℤ}

include h

theorem eq_of_abs_sub_lt (hq : |q - m| < 1 / 2) : near q = m := by
  have hdist : |((near q - m : ℤ) : ℚ)| < 1 := by
    push_cast
    calc |(near q : ℚ) - m| = |((near q : ℚ) - q) + (q - m)| := by ring_nf
      _ ≤ |(near q : ℚ) - q| + |q - m| := abs_add_le _ _
      _ < 1 := by linarith [h q]
  have hzero : |near q - m| < 1 := by exact_mod_cast hdist
  exact sub_eq_zero.mp (Int.abs_lt_one_iff.mp hzero)

theorem intCast (m : ℤ) : near m = m := h.eq_of_abs_sub_lt (by norm_num)

theorem abs_le_of_abs_lt (hq : |q| < m + 1 / 2) : |near q| ≤ m := by
  have hlt : ((|near q| : ℤ) : ℚ) < m + 1 := by
    push_cast
    calc |(near q : ℚ)| = |((near q : ℚ) - q) + q| := by ring_nf
      _ ≤ |(near q : ℚ) - q| + |q| := abs_add_le _ _
      _ < m + 1 := by linarith [h q]
  have : |near q| < m + 1 := by exact_mod_cast hlt
  omega

end IsNearest

/-! ### Place values -/

/-- The place value of the last of `p` digits of a number. -/
def place (b p : ℕ) (q : ℚ) : ℚ := (b : ℚ) ^ (Int.log b |q| - p + 1)

/-- **A number with `p` digits in base `b`.** -/
def round (near : ℚ → ℤ) (b p : ℕ) (q : ℚ) : ℚ := near (q / place b p q) * place b p q

/-- A number that `p` digits in base `b` hold. -/
def Holds (b p : ℕ) (q : ℚ) : Prop := ∃ m k : ℤ, |m| < b ^ p ∧ q = m * (b : ℚ) ^ k

section Base

variable {near : ℚ → ℤ} {b p : ℕ} {q v n : ℚ}

theorem place_pos (hb : 1 < b) (p : ℕ) (q : ℚ) : 0 < place b p q :=
  zpow_pos (by exact_mod_cast hb.pos) _

/-- All digits are used, -/
theorem le_abs (hb : 1 < b) (hq : q ≠ 0) : (b : ℚ) ^ ((p : ℤ) - 1) * place b p q ≤ |q| := by
  have hne : (b : ℚ) ≠ 0 := by exact_mod_cast hb.ne_bot
  have hexp : (p : ℤ) - 1 + (Int.log b |q| - p + 1) = Int.log b |q| := by omega
  rw [place, ← zpow_add₀ hne, hexp]
  exact Int.zpow_log_le_self hb (abs_pos.mpr hq)

/-- and no more than there are. -/
theorem abs_lt (hb : 1 < b) (p : ℕ) (q : ℚ) : |q| < (b : ℚ) ^ p * place b p q := by
  have hne : (b : ℚ) ≠ 0 := by exact_mod_cast hb.ne_bot
  have hexp : (p : ℤ) + (Int.log b |q| - p + 1) = Int.log b |q| + 1 := by omega
  rw [place, ← zpow_natCast, ← zpow_add₀ hne, hexp]
  exact Int.lt_zpow_succ_log_self hb |q|

theorem round_zero (h : IsNearest near) : round near b p 0 = 0 := by
  have hzero : near 0 = 0 := by exact_mod_cast h.intCast 0
  rw [round, zero_div, hzero, Int.cast_zero, zero_mul]

/-! ### How far a number is moved -/

theorem abs_round_sub_le (h : IsNearest near) (hb : 1 < b) (p : ℕ) (q : ℚ) :
    |round near b p q - q| ≤ place b p q / 2 := by
  have hpos := place_pos hb p q
  have hq : q = q / place b p q * place b p q := (div_mul_cancel₀ q hpos.ne').symm
  calc |round near b p q - q|
      = |(near (q / place b p q) - q / place b p q) * place b p q| := by
        rw [round, sub_mul, ← hq]
    _ = |(near (q / place b p q) : ℚ) - q / place b p q| * place b p q := by
        rw [abs_mul, abs_of_pos hpos]
    _ ≤ 1 / 2 * place b p q := by gcongr; exact h _
    _ = place b p q / 2 := by ring

/-- The share by which a number is moved at most. -/
theorem abs_round_sub_le_mul (h : IsNearest near) (hb : 1 < b) (p : ℕ) (q : ℚ) :
    |round near b p q - q| ≤ (b : ℚ) ^ (1 - (p : ℤ)) / 2 * |q| := by
  rcases eq_or_ne q 0 with rfl | hq
  · simp [round_zero h]
  · have hne : (b : ℚ) ≠ 0 := by exact_mod_cast hb.ne_bot
    have hbpos : (0 : ℚ) < (b : ℚ) ^ (1 - (p : ℤ)) := zpow_pos (by exact_mod_cast hb.pos) _
    have hplace : place b p q ≤ (b : ℚ) ^ (1 - (p : ℤ)) * |q| := by
      calc place b p q
          = (b : ℚ) ^ (1 - (p : ℤ)) * ((b : ℚ) ^ ((p : ℤ) - 1) * place b p q) := by
            rw [← mul_assoc, ← zpow_add₀ hne]
            simp
        _ ≤ (b : ℚ) ^ (1 - (p : ℤ)) * |q| := by gcongr; exact le_abs hb hq
    linarith [abs_round_sub_le h hb p q]

/-- The bounds of what a number that is not negative is rounded to. -/
theorem round_mem (h : IsNearest near) (hb : 1 < b) (p : ℕ) {q : ℚ} (hq : 0 ≤ q) :
    (1 - (b : ℚ) ^ (1 - (p : ℤ)) / 2) * q ≤ round near b p q ∧
      round near b p q ≤ (1 + (b : ℚ) ^ (1 - (p : ℤ)) / 2) * q := by
  obtain ⟨hlow, hhigh⟩ := abs_le.mp (abs_round_sub_le_mul h hb p q)
  rw [abs_of_nonneg hq] at hlow hhigh
  constructor <;> linarith

/-- A negative number stays negative. -/
theorem round_neg (h : IsNearest near) (hb : 1 < b) (hp : 0 < p) {q : ℚ} (hq : q < 0) :
    round near b p q < 0 := by
  obtain ⟨-, hhigh⟩ := abs_le.mp (abs_round_sub_le_mul h hb p q)
  have hle : (b : ℚ) ^ (1 - (p : ℤ)) ≤ 1 :=
    zpow_le_one_of_nonpos₀ (by exact_mod_cast hb.le) (by omega)
  have hscaled := mul_le_mul_of_nonneg_right hle (abs_nonneg q)
  rw [abs_of_neg hq] at hhigh hscaled
  linarith

/-- An even multiple of the place value is reached from half a place below it. -/
theorem le_round_iff (hb : 1 < b) {m : ℤ} (hm : Even m) (hn : n = m * place b p q) :
    n ≤ round halfEven b p q ↔ n - place b p q / 2 ≤ q := by
  have hpos := place_pos hb p q
  have hquot : (m : ℚ) - 1 / 2 ≤ q / place b p q ↔ n - place b p q / 2 ≤ q := by
    have hsub : n - place b p q / 2 = (m - 1 / 2) * place b p q := by
      rw [hn]
      ring
    rw [hsub, le_div_iff₀ hpos]
  rw [← hquot, ← le_halfEven_iff hm, round, hn, mul_le_mul_iff_left₀ hpos, Int.cast_le]

/-! ### Numbers that the digits hold -/

/-- What is held is a multiple of the place value of its last digit, and of all below. -/
theorem Holds.exists_multiple (hb : 1 < b) (hn : Holds b p n) (hne : n ≠ 0) {k : ℤ}
    (hk : k ≤ Int.log b |n| - p + 1) : ∃ m : ℤ, n = m * (b : ℚ) ^ k := by
  obtain ⟨m, j, hm, rfl⟩ := hn
  have hb0 : (b : ℚ) ≠ 0 := by exact_mod_cast hb.ne_bot
  have hbpos : (0 : ℚ) < b := by exact_mod_cast hb.pos
  have hlt : |(m : ℚ) * (b : ℚ) ^ j| < (b : ℚ) ^ (p + j) := by
    rw [zpow_add₀ hb0, abs_mul, abs_of_pos (zpow_pos hbpos j), zpow_natCast]
    have hmq : |(m : ℚ)| < (b : ℚ) ^ p := by exact_mod_cast hm
    exact mul_lt_mul_of_pos_right hmq (zpow_pos hbpos j)
  have hlog := (Int.lt_zpow_iff_log_lt hb (abs_pos.mpr hne)).mp hlt
  obtain ⟨i, hi⟩ := Int.eq_ofNat_of_zero_le (show 0 ≤ j - k by omega)
  refine ⟨m * (b : ℤ) ^ i, ?_⟩
  have hj : j = i + k := by omega
  push_cast
  rw [hj, zpow_add₀ hb0, zpow_natCast, mul_assoc]

/-- A multiple of the place value is rounded to, from less than half of it away. -/
theorem round_eq_of_abs_sub_lt (h : IsNearest near) (hb : 1 < b) {m : ℤ}
    (hn : n = m * place b p v) (hlt : |v - n| < place b p v / 2) : round near b p v = n := by
  have hpos := place_pos hb p v
  have hquot : |v / place b p v - m| < 1 / 2 := by
    have heq : v / place b p v - m = (v - n) / place b p v := by
      rw [hn]
      field_simp
    rw [heq, abs_div, abs_of_pos hpos, div_lt_iff₀ hpos]
    linarith
  rw [round, h.eq_of_abs_sub_lt hquot, ← hn]

/-- The digits of a number that is held leave room above it and, unless it is a power of the
base, below it. -/
theorem Holds.room (hb : 1 < b) (hn : Holds b p n) (hne : n ≠ 0) :
    |n| + place b p n ≤ (b : ℚ) ^ (Int.log b |n| + 1) ∧
      (|n| = (b : ℚ) ^ Int.log b |n| ∨
        (b : ℚ) ^ Int.log b |n| + place b p n ≤ |n|) := by
  have hb0 : (b : ℚ) ≠ 0 := by exact_mod_cast hb.ne_bot
  have hpos := place_pos hb p n
  obtain ⟨m, hm⟩ := hn.exists_multiple hb hne le_rfl
  have habs : |n| = |(m : ℚ)| * place b p n := by
    conv_lhs => rw [hm]
    rw [abs_mul, ← place, abs_of_pos hpos]
  have hupper : (b : ℚ) ^ (Int.log b |n| + 1) = (b : ℚ) ^ p * place b p n := by
    rw [place, ← zpow_natCast, ← zpow_add₀ hb0]
    congr 1
    omega
  constructor
  · -- the quotient is an integer below a power of the base
    have hlt : |(m : ℚ)| < (b : ℚ) ^ p := by
      have := habs ▸ abs_lt hb p n
      exact lt_of_mul_lt_mul_right this hpos.le
    have hle : |(m : ℚ)| + 1 ≤ (b : ℚ) ^ p := by
      have : |m| < (b : ℤ) ^ p := by exact_mod_cast hlt
      exact_mod_cast this
    rw [hupper, habs]
    nlinarith
  · cases p with
    | zero =>
      have hlt := habs ▸ abs_lt hb 0 n
      have : |(m : ℚ)| < 1 := by
        rw [pow_zero] at hlt
        exact lt_of_mul_lt_mul_right hlt hpos.le
      have hzero : m = 0 := Int.abs_lt_one_iff.mp (by exact_mod_cast this)
      exact absurd (by rw [hm, hzero, Int.cast_zero, zero_mul]) hne
    | succ p =>
      have hlower : (b : ℚ) ^ Int.log b |n| = (b : ℚ) ^ p * place b (p + 1) n := by
        rw [place, ← zpow_natCast, ← zpow_add₀ hb0]
        congr 1
        push_cast
        omega
      have hle : (b : ℚ) ^ p ≤ |(m : ℚ)| := by
        have := Int.zpow_log_le_self hb (abs_pos.mpr hne)
        rw [hlower] at this
        exact le_of_mul_le_mul_right (habs ▸ this) hpos
      rw [hlower, habs]
      rcases eq_or_lt_of_le hle with heq | hlt
      · exact .inl (by rw [heq])
      · refine .inr ?_
        have : (b : ℚ) ^ p + 1 ≤ |(m : ℚ)| := by
          have : (b : ℤ) ^ p < |m| := by exact_mod_cast hlt
          exact_mod_cast this
        nlinarith

/-- **A number that is held is rounded to**, from all numbers that are closer to it than the
digits can tell. -/
theorem Holds.round_eq (hn : Holds b p n) (h : IsNearest near) (hb : 1 < b) {ε : ℚ}
    (hv : |v - n| ≤ ε * |n|) (hε : 2 * ε * (b : ℚ) ^ p < 1) : round near b p v = n := by
  rcases eq_or_ne n 0 with rfl | hne
  · obtain rfl : v = 0 := by simpa using hv
    exact round_zero h
  have hb0 : (b : ℚ) ≠ 0 := by exact_mod_cast hb.ne_bot
  have hb2 : (2 : ℚ) ≤ b := by exact_mod_cast hb
  have hnpos : 0 < |n| := abs_pos.mpr hne
  have hpos := place_pos hb p n
  have hε0 : 0 ≤ ε := nonneg_of_mul_nonneg_left ((abs_nonneg _).trans hv) hnpos
  have hclose : |v - n| < place b p n / 2 := by
    have hshare := mul_le_mul_of_nonneg_left (abs_lt hb p n).le hε0
    nlinarith
  have hhalf : 2 * ε < 1 := by
    have : (1 : ℚ) ≤ (b : ℚ) ^ p := one_le_pow₀ (by linarith)
    nlinarith
  have hlow : |n| - |v - n| ≤ |v| := by
    have := abs_sub_abs_le_abs_sub n v
    rw [abs_sub_comm n v] at this
    linarith
  have hhigh : |v| ≤ |n| + |v - n| := by
    have := abs_sub_abs_le_abs_sub v n
    linarith
  obtain ⟨habove, hbelow⟩ := hn.room hb hne
  have hvpos : 0 < |v| := by nlinarith
  have hlog : Int.log b |v| ≤ Int.log b |n| := by
    have hlt : |v| < (b : ℚ) ^ (Int.log b |n| + 1) := by linarith
    have := (Int.lt_zpow_iff_log_lt hb hvpos).mp hlt
    omega
  -- the two have the same place value, or the next lower one just below a power of the base
  obtain ⟨m, hm⟩ := hn.exists_multiple hb hne (k := Int.log b |v| - p + 1) (by omega)
  refine round_eq_of_abs_sub_lt h hb hm ?_
  rcases hlog.eq_or_lt with heq | hlt
  · rw [place, heq]
    exact hclose
  · have hvlt : |v| < (b : ℚ) ^ Int.log b |n| := (Int.lt_zpow_iff_log_lt hb hvpos).mpr hlt
    have hpower : |n| = (b : ℚ) ^ Int.log b |n| := by
      refine hbelow.resolve_right fun hge => ?_
      linarith
    have hnext : (b : ℚ) ^ Int.log b |n| = b * (b : ℚ) ^ (Int.log b |n| - 1) := by
      rw [← zpow_one_add₀ hb0]
      congr 1
      omega
    have hge : (b : ℚ) ^ (Int.log b |n| - 1) ≤ |v| := by
      have hzpos : (0 : ℚ) < (b : ℚ) ^ (Int.log b |n| - 1) := zpow_pos (by linarith) _
      have : 2 * (b : ℚ) ^ (Int.log b |n| - 1) ≤ |n| := by
        rw [hpower, Int.log_zpow hb, hnext]
        gcongr
      nlinarith
    have hlog' : Int.log b |v| = Int.log b |n| - 1 := by
      have := (Int.zpow_le_iff_le_log hb hvpos).mp hge
      omega
    have hplace : |n| = (b : ℚ) ^ p * place b p v := by
      rw [hpower, place, hlog', ← zpow_natCast, ← zpow_add₀ hb0]
      congr 1
      omega
    have hvpos' := place_pos hb p v
    rw [hplace] at hv
    nlinarith

theorem abs_near_le (h : IsNearest near) (hb : 1 < b) (p : ℕ) (q : ℚ) :
    |near (q / place b p q)| ≤ (b : ℤ) ^ p := by
  have hpos := place_pos hb p q
  refine h.abs_le_of_abs_lt ?_
  rw [abs_div, abs_of_pos hpos, div_lt_iff₀ hpos]
  push_cast
  nlinarith [abs_lt hb p q]

/-- What is rounded to is held. -/
theorem holds_round (h : IsNearest near) (hb : 1 < b) (hp : 0 < p) (q : ℚ) :
    Holds b p (round near b p q) := by
  have hb0 : (b : ℚ) ≠ 0 := by exact_mod_cast hb.ne_bot
  rcases (abs_near_le h hb p q).lt_or_eq with hlt | heq
  · exact ⟨_, _, hlt, rfl⟩
  · -- a power of the base needs one digit only
    have hone : (1 : ℤ) < (b : ℤ) ^ p := one_lt_pow₀ (by exact_mod_cast hb) hp.ne'
    have hpower : (b : ℚ) ^ (p + (Int.log b |q| - p + 1)) = (b : ℚ) ^ p * place b p q := by
      rw [place, zpow_add₀ hb0, zpow_natCast]
    rcases (abs_eq (by positivity)).mp heq with hval | hval
    · refine ⟨1, p + (Int.log b |q| - p + 1), by simpa using hone, ?_⟩
      rw [round, hval, hpower]
      push_cast
      ring
    · refine ⟨-1, p + (Int.log b |q| - p + 1), by simpa using hone, ?_⟩
      rw [round, hval, hpower]
      push_cast
      ring

/-- **Two roundings.** Where `p'` digits in base `b'` are finer than `p` digits in base `b`, a
number survives both roundings if and only if the fewer digits hold it. -/
theorem round_round_iff (b' p' : ℕ) {near' : ℚ → ℤ} (h : IsNearest near)
    (h' : IsNearest near') (hb : 1 < b) (hb' : 1 < b') (hp : 0 < p)
    (hfine : (b : ℚ) ^ p * (b' : ℚ) ^ (1 - (p' : ℤ)) < 1) :
    round near b p (round near' b' p' q) = q ↔ Holds b p q := by
  refine ⟨fun heq => heq ▸ holds_round h hb hp _, fun hq => ?_⟩
  refine hq.round_eq h hb (abs_round_sub_le_mul h' hb' p' q) ?_
  linarith

/-! ### Sizes -/

/-- A number below the middle between two neighbours is not rounded beyond the lower one. -/
theorem abs_round_le (h : IsNearest near) (hb : 1 < b) {m k : ℤ}
    (hlow : (b : ℚ) ^ ((p : ℤ) - 1) ≤ m) (hhigh : m < (b : ℤ) ^ p)
    (hq : |q| < (m + 1 / 2) * (b : ℚ) ^ k) : |round near b p q| ≤ m * (b : ℚ) ^ k := by
  have hb0 : (b : ℚ) ≠ 0 := by exact_mod_cast hb.ne_bot
  have hbpos : (0 : ℚ) < b := by exact_mod_cast hb.pos
  have hkpos : (0 : ℚ) < (b : ℚ) ^ k := zpow_pos hbpos k
  have hmpos : (0 : ℚ) < m := (zpow_pos hbpos _).trans_le hlow
  rcases eq_or_ne q 0 with rfl | hne
  · rw [round_zero h, abs_zero]
    positivity
  have hpos := place_pos hb p q
  have habs : |round near b p q| = (|near (q / place b p q)| : ℤ) * place b p q := by
    rw [round, abs_mul, abs_of_pos hpos]
    push_cast
    rfl
  have hlog : Int.log b |q| < p + k := by
    refine (Int.lt_zpow_iff_log_lt hb (abs_pos.mpr hne)).mp (hq.trans_le ?_)
    have hle : (m : ℚ) + 1 ≤ (b : ℚ) ^ p := by exact_mod_cast hhigh
    rw [zpow_add₀ hb0, zpow_natCast]
    exact mul_le_mul_of_nonneg_right (by linarith) hkpos.le
  rw [habs]
  rcases eq_or_ne (Int.log b |q|) (p + k - 1) with heq | hne'
  · -- the same place value
    have hplace : place b p q = (b : ℚ) ^ k := by
      rw [place, heq]
      congr 1
      omega
    have hnear : |near (q / place b p q)| ≤ m := by
      refine h.abs_le_of_abs_lt ?_
      rw [abs_div, abs_of_pos hpos, div_lt_iff₀ hpos, hplace]
      exact hq
    rw [hplace] at hnear ⊢
    exact mul_le_mul_of_nonneg_right (by exact_mod_cast hnear) hkpos.le
  · have hnear : ((|near (q / place b p q)| : ℤ) : ℚ) ≤ (b : ℚ) ^ p := by
      exact_mod_cast abs_near_le h hb p q
    calc ((|near (q / place b p q)| : ℤ) : ℚ) * place b p q
        ≤ (b : ℚ) ^ p * place b p q := mul_le_mul_of_nonneg_right hnear hpos.le
      _ = (b : ℚ) ^ (Int.log b |q| + 1) := by
          rw [place, ← zpow_natCast, ← zpow_add₀ hb0]
          congr 1
          omega
      _ ≤ (b : ℚ) ^ ((p : ℤ) - 1 + k) :=
          zpow_le_zpow_right₀ (by exact_mod_cast hb.le) (by omega)
      _ = (b : ℚ) ^ ((p : ℤ) - 1) * (b : ℚ) ^ k := zpow_add₀ hb0 _ _
      _ ≤ m * (b : ℚ) ^ k := mul_le_mul_of_nonneg_right hlow hkpos.le

/-- What is not above a number that is held is not rounded above it. -/
theorem Holds.abs_round_le (hn : Holds b p n) (h : IsNearest near) (hb : 1 < b) (hpos : 0 < n)
    (hq : |q| ≤ n) : |round near b p q| ≤ n := by
  obtain ⟨m, hm⟩ := hn.exists_multiple hb hpos.ne' le_rfl
  have habs : |n| = m * place b p n := by
    rw [abs_of_pos hpos]
    exact hm
  have hplace := place_pos hb p n
  have hlow := le_abs (p := p) hb hpos.ne'
  have hhigh := abs_lt hb p n
  rw [habs] at hlow hhigh
  have hlt : (m : ℚ) < (b : ℚ) ^ p := lt_of_mul_lt_mul_right hhigh hplace.le
  have hle : |q| < (m + 1 / 2) * (b : ℚ) ^ (Int.log b |n| - p + 1) := by
    rw [← place, add_mul]
    have hhalf : 0 < 1 / 2 * place b p n := by positivity
    have heq : n = m * place b p n := hm
    linarith
  rw [hm]
  exact Digits.abs_round_le h hb (le_of_mul_le_mul_right hlow hplace) (by exact_mod_cast hlt) hle

/-- A number with at least as many digits before the point as there are is rounded to an
integer. -/
theorem exists_round_eq_intCast (near : ℚ → ℤ) (hb : 1 < b)
    (hq : (b : ℚ) ^ ((p : ℤ) - 1) ≤ |q|) : ∃ n : ℤ, round near b p q = n := by
  have hqpos : 0 < |q| := (zpow_pos (by exact_mod_cast hb.pos) _).trans_le hq
  have hlog := (Int.zpow_le_iff_le_log hb hqpos).mp hq
  obtain ⟨i, hi⟩ := Int.eq_ofNat_of_zero_le (show 0 ≤ Int.log b |q| - p + 1 by omega)
  refine ⟨near (q / place b p q) * (b : ℤ) ^ i, ?_⟩
  have hplace : place b p q = (b : ℚ) ^ i := by rw [place, hi, zpow_natCast]
  rw [round, hplace]
  push_cast
  rfl

/-- An integer that `p` digits hold is some digits and zeros. -/
theorem holds_intCast_iff (hb : 1 < b) {n : ℤ} :
    Holds b p n ↔ ∃ (m : ℤ) (k : ℕ), |m| < b ^ p ∧ n = m * b ^ k := by
  constructor
  · rintro ⟨m, k, hm, hn⟩
    rcases Int.eq_nat_or_neg k with ⟨k, rfl | rfl⟩
    · exact ⟨m, k, hm, by exact_mod_cast hn⟩
    · -- digits after the point would be zeros
      refine ⟨n, 0, lt_of_le_of_lt ?_ hm, by simp⟩
      have hb0 : (b : ℚ) ^ k ≠ 0 := pow_ne_zero k (by exact_mod_cast hb.ne_bot)
      have hmul : m = n * (b : ℤ) ^ k := by
        rw [zpow_neg, zpow_natCast, eq_mul_inv_iff_mul_eq₀ hb0] at hn
        exact_mod_cast hn.symm
      have hone : (1 : ℤ) ≤ (b : ℤ) ^ k := one_le_pow₀ (by exact_mod_cast hb.le)
      rw [hmul, abs_mul, abs_of_nonneg (a := (b : ℤ) ^ k) (by omega)]
      exact le_mul_of_one_le_right (abs_nonneg n) hone
  · rintro ⟨m, k, hm, rfl⟩
    exact ⟨m, k, hm, by push_cast; rw [zpow_natCast]⟩

end Base

end Digits
