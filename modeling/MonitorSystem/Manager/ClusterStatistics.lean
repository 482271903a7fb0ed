import MonitorSystem.Library.SignificantDigits
import MonitorSystem.Manager.ScoreRank
import Mathlib.Algebra.Order.BigOperators.Group.List

/-!
# The statistics of a cluster

`queryLatestServerScores` (`manager/src/QueryManager.cpp`) goes through the latest rows of the
servers once and keeps six accumulators. The greatest score starts from zero and the least one
from `MAX_SCORE`, and both comparisons are strict, so that a score at the end of its range
does not displace the value that was there before: a hundred is no improvement on `MAX_SCORE`,
which is a hundred as a `float` (`maxScoreConstant_eq`), and zero is none on the zero from which
the greatest score starts.

`CorrectStatistics` is what the statistics ought to be, `Totals` what the loop has found out
after a part of the records, and `correctStatistics_iff` says when the two agree.
-/

namespace MonitorSystem

open Sql Oracle

/-! ### The two ends of the scores -/

/-- The statistics with a start value for the least score. -/
def clusterStatsFrom (p : Platform) (limit : ℚ) (records : List ServerScoreSummary) :
    ClusterStats :=
  let t := records.foldl (ScoreTotals.add p) ⟨0, 0, limit, "", "", 0, 0⟩
  { totalServers := records.length
    onlineServers := t.onlineCount
    offlineServers := t.offlineCount
    avgScore := if records = [] then 0 else p.single (t.totalScore / p.single records.length)
    maxScore := if 0 < t.maxScore then t.maxScore else 0
    minScore := if t.minScore < limit then t.minScore else 0
    bestServer := t.bestServer
    worstServer := t.worstServer }

/-- The statistics of the query start from its own limit. -/
theorem clusterStats_eq (p : Platform) (records : List ServerScoreSummary) :
    clusterStats p records = clusterStatsFrom p (scoreLimit p) records :=
  rfl

/-- Rounding to `float`, of numbers that are neither tiny nor huge. -/
def binary32 (q : ℚ) : ℚ := Digits.round Digits.halfEven 2 24 q

theorem binary32_eq_self_iff {q : ℚ} : binary32 q = q ↔ Digits.Holds 2 24 q := by
  constructor
  · intro heq
    rw [← heq]
    exact Digits.holds_round Digits.isNearest_halfEven (by decide) (by decide) q
  · intro h
    exact h.round_eq Digits.isNearest_halfEven (by decide) (by rw [sub_self, abs_zero, zero_mul])
      (by norm_num)

theorem binary32_mem {q : ℚ} (hq : 0 ≤ q) :
    (1 - 1 / 2 ^ 24) * q ≤ binary32 q ∧ binary32 q ≤ (1 + 1 / 2 ^ 24) * q := by
  have h := Digits.round_mem (b := 2) Digits.isNearest_halfEven (by decide) 24 hq
  norm_num at h ⊢
  exact h

/-- `MAX_SCORE`, as the compiler computes it. -/
def maxScoreConstant : ℚ := binary32 (100 + 1 / 8388608)

/-- **The epsilon is lost**: it is too small for a hundred. -/
theorem maxScoreConstant_eq : maxScoreConstant = 100 := by
  have hholds : Digits.Holds 2 24 100 := ⟨100, 0, by decide, by norm_num⟩
  refine hholds.round_eq (ε := 1 / 800000000) Digits.isNearest_halfEven (by decide) ?_ ?_
  · rw [add_sub_cancel_left, abs_of_pos (by norm_num), abs_of_pos (by norm_num)]
    norm_num
  · norm_num

/-- The records and the statistics of some rows, in exact arithmetic but for `MAX_SCORE`. -/
def exactLatestScores (d : ExactDialect) (clock : Clock) (texts : Rows) : LatestScores :=
  let records := texts.map (scoreSummary d clock)
  { records, stats := clusterStatsFrom .exact maxScoreConstant records }

/-! ### What the statistics ought to be -/

/-- **The statistics of the records of some rows**, at a time. -/
structure CorrectStatistics (now : ℤ) (rows : ℕ) (answer : LatestScores) : Prop where
  greatest : ∀ r ∈ answer.records, r.score ≤ answer.stats.maxScore
  best : ∃ r ∈ answer.records,
    r.serverName = answer.stats.bestServer ∧ r.score = answer.stats.maxScore
  least : ∀ r ∈ answer.records, answer.stats.minScore ≤ r.score
  worst : ∃ r ∈ answer.records,
    r.serverName = answer.stats.worstServer ∧ r.score = answer.stats.minScore
  average : answer.stats.minScore ≤ answer.stats.avgScore ∧
    answer.stats.avgScore ≤ answer.stats.maxScore
  status : ∀ r ∈ answer.records,
    r.status = .online ↔ (now - r.lastUpdated).tdiv 1000000000 ≤ 60
  online : answer.stats.onlineServers = answer.records.countP (·.status = .online)
  split : answer.stats.onlineServers + answer.stats.offlineServers = answer.stats.totalServers
  total : answer.stats.totalServers = rows

/-! ### The loop -/

section Loop

variable {limit : ℚ} {done : List ServerScoreSummary} {t : ScoreTotals}

/-- **What the loop has found out** about the records that it has gone through. -/
structure Totals (limit : ℚ) (done : List ServerScoreSummary) (t : ScoreTotals) : Prop where
  sum : t.totalScore = (done.map (·.score)).sum
  online : t.onlineCount = done.countP (·.status = .online)
  split : t.onlineCount + t.offlineCount = done.length
  greatest : ∀ r ∈ done, r.score ≤ t.maxScore
  best : (t.maxScore = 0 ∧ t.bestServer = "") ∨
    (0 < t.maxScore ∧ ∃ r ∈ done, r.serverName = t.bestServer ∧ r.score = t.maxScore)
  least : ∀ r ∈ done, t.minScore ≤ r.score
  worst : (t.minScore = limit ∧ t.worstServer = "") ∨
    (t.minScore < limit ∧ ∃ r ∈ done, r.serverName = t.worstServer ∧ r.score = t.minScore)

theorem totals_nil : Totals limit [] ⟨0, 0, limit, "", "", 0, 0⟩ where
  sum := rfl
  online := rfl
  split := rfl
  greatest := fun _ h => nomatch h
  best := .inl ⟨rfl, rfl⟩
  least := fun _ h => nomatch h
  worst := .inl ⟨rfl, rfl⟩

/-- What held of a part of the records holds of it with one more record. -/
theorem exists_mem_snoc {P : ServerScoreSummary → Prop} {x : ServerScoreSummary}
    (h : ∃ r ∈ done, P r) : ∃ r ∈ done ++ [x], P r := by
  obtain ⟨r, hr, hP⟩ := h
  exact ⟨r, List.mem_append_left _ hr, hP⟩

/-- One turn of the loop. -/
theorem Totals.add (h : Totals limit done t) (x : ServerScoreSummary) :
    Totals limit (done ++ [x]) (t.add .exact x) where
  sum := by
    rw [List.map_append, List.sum_append, ← h.sum]
    simp [ScoreTotals.add, Platform.exact]
  online := by
    have hsnoc : (done ++ [x]).countP (·.status = .online) =
        done.countP (·.status = .online) + if x.status = .online then 1 else 0 := by
      rw [List.countP_append, List.countP_singleton]
      simp
    rw [hsnoc, ← h.online]
    show (if x.status = .online then _ else _) = _
    split <;> rfl
  split := by
    have hlength : (done ++ [x]).length = done.length + 1 := by simp
    rw [hlength, ← h.split]
    show (if x.status = .online then _ else _) + (if x.status = .online then _ else _) = _
    split <;> omega
  greatest := by
    intro r hr
    show r.score ≤ if t.maxScore < x.score then x.score else t.maxScore
    rcases List.mem_append.mp hr with hr | hr
    · have := h.greatest r hr
      split <;> linarith
    · obtain rfl := List.mem_singleton.mp hr
      split <;> linarith
  best := by
    by_cases hlt : t.maxScore < x.score
    · have hnonneg : 0 ≤ t.maxScore := by
        rcases h.best with ⟨hzero, -⟩ | ⟨hpos, -⟩
        · exact hzero.ge
        · exact hpos.le
      simp only [ScoreTotals.add, if_pos hlt]
      exact .inr ⟨hnonneg.trans_lt hlt, x, by simp, rfl, rfl⟩
    · simp only [ScoreTotals.add, if_neg hlt]
      exact h.best.imp_right fun ⟨hpos, hex⟩ => ⟨hpos, exists_mem_snoc hex⟩
  least := by
    intro r hr
    show (if x.score < t.minScore then x.score else t.minScore) ≤ r.score
    rcases List.mem_append.mp hr with hr | hr
    · have := h.least r hr
      split <;> linarith
    · obtain rfl := List.mem_singleton.mp hr
      split <;> linarith
  worst := by
    by_cases hlt : x.score < t.minScore
    · have hle : t.minScore ≤ limit := by
        rcases h.worst with ⟨heq, -⟩ | ⟨hbelow, -⟩
        · exact heq.le
        · exact hbelow.le
      simp only [ScoreTotals.add, if_pos hlt]
      exact .inr ⟨hlt.trans_le hle, x, by simp, rfl, rfl⟩
    · simp only [ScoreTotals.add, if_neg hlt]
      exact h.worst.imp_right fun ⟨hbelow, hex⟩ => ⟨hbelow, exists_mem_snoc hex⟩

/-- The whole loop. -/
theorem totals_foldl (limit : ℚ) (records : List ServerScoreSummary) :
    Totals limit records
      (records.foldl (ScoreTotals.add .exact) ⟨0, 0, limit, "", "", 0, 0⟩) := by
  induction records using List.reverseRecOn with
  | nil => exact totals_nil
  | append_singleton done x ih =>
    rw [List.foldl_concat]
    exact ih.add x

end Loop

/-! ### When the statistics are right -/

section Correct

variable {limit : ℚ} {records : List ServerScoreSummary}

theorem Totals.maxScore_nonneg {t : ScoreTotals} (h : Totals limit records t) :
    0 ≤ t.maxScore := by
  rcases h.best with ⟨hzero, -⟩ | ⟨hpos, -⟩
  · exact hzero.ge
  · exact hpos.le

/-- A mean lies between the bounds of its summands. -/
theorem mean_mem {low high : ℚ} (hne : records ≠ [])
    (hlow : ∀ r ∈ records, low ≤ r.score) (hhigh : ∀ r ∈ records, r.score ≤ high) :
    low ≤ (records.map (·.score)).sum / records.length ∧
      (records.map (·.score)).sum / records.length ≤ high := by
  have hpos : (0 : ℚ) < records.length := by exact_mod_cast List.length_pos_iff.mpr hne
  have hle := List.sum_le_card_nsmul (records.map (·.score)) high (List.forall_mem_map.mpr hhigh)
  have hge := List.card_nsmul_le_sum (records.map (·.score)) low (List.forall_mem_map.mpr hlow)
  rw [List.length_map, nsmul_eq_mul] at hle hge
  rw [le_div_iff₀ hpos, div_le_iff₀ hpos, mul_comm low, mul_comm high]
  exact ⟨hge, hle⟩

variable (limit) in
/-- The statistics in terms of what the loop has found out. -/
theorem exists_totals (hne : records ≠ []) :
    ∃ t, Totals limit records t ∧ clusterStatsFrom .exact limit records =
      { totalServers := records.length
        onlineServers := t.onlineCount
        offlineServers := t.offlineCount
        avgScore := (records.map (·.score)).sum / records.length
        maxScore := t.maxScore
        minScore := if t.minScore < limit then t.minScore else 0
        bestServer := t.bestServer
        worstServer := t.worstServer } := by
  have h := totals_foldl limit records
  refine ⟨_, h, ?_⟩
  have hmax : ∀ q : ℚ, 0 ≤ q → (if 0 < q then q else 0) = q := fun q hq => by
    split
    · rfl
    · exact le_antisymm hq (not_lt.mp ‹_›)
  rw [clusterStatsFrom, if_neg hne, h.sum, hmax _ h.maxScore_nonneg]
  rfl

variable {now : ℤ} {rows : ℕ} {answer : LatestScores}

/-- **When the greatest and the least score and their servers are right.** -/
theorem extremes_iff {t : ScoreTotals} (h : Totals limit records t) (hlimit : 0 < limit)
    (hscore : ∀ r ∈ records, 0 ≤ r.score ∧ r.score ≤ limit) :
    ((∃ r ∈ records, r.serverName = t.bestServer ∧ r.score = t.maxScore) ∧
      ∃ r ∈ records, r.serverName = t.worstServer ∧
        r.score = if t.minScore < limit then t.minScore else 0) ↔
      (∃ r ∈ records, r.score < limit) ∧
        ((∃ r ∈ records, 0 < r.score) ∨ ∃ r ∈ records, r.serverName = "") := by
  constructor
  · rintro ⟨⟨b, hb, hbname, hbscore⟩, w, hw, -, hwscore⟩
    constructor
    · -- a least score of zero where the limit is all there is
      rcases h.worst with ⟨heq, -⟩ | ⟨hlt, r, hr, -, hrscore⟩
      · rw [heq, if_neg (lt_irrefl _)] at hwscore
        exact ⟨w, hw, hwscore ▸ hlimit⟩
      · exact ⟨r, hr, hrscore ▸ hlt⟩
    · rcases h.best with ⟨-, hname⟩ | ⟨hpos, r, hr, -, hrscore⟩
      · exact .inr ⟨b, hb, hbname.trans hname⟩
      · exact .inl ⟨r, hr, hrscore ▸ hpos⟩
  · rintro ⟨⟨w, hw, hwlt⟩, hbest⟩
    constructor
    · rcases h.best with ⟨hzero, hname⟩ | ⟨-, hex⟩
      · rcases hbest with ⟨r, hr, hpos⟩ | ⟨r, hr, hrname⟩
        · exact absurd (h.greatest r hr) (by rw [hzero]; exact not_le.mpr hpos)
        · have hle := h.greatest r hr
          rw [hzero] at hle
          exact ⟨r, hr, hrname.trans hname.symm, (le_antisymm hle (hscore r hr).1).trans hzero.symm⟩
      · exact hex
    · have hlt : t.minScore < limit := (h.least w hw).trans_lt hwlt
      rw [if_pos hlt]
      rcases h.worst with ⟨heq, -⟩ | ⟨-, hex⟩
      · exact absurd heq hlt.ne
      · exact hex

/-- **The statistics are right if and only if** some server has less than a hundred, and some
server has more than zero or no name. -/
theorem correctStatistics_iff (d : ExactDialect) (clock : Clock) (texts : Rows)
    (hne : texts ≠ []) (hscore : ∀ row ∈ texts, 0 ≤ toFloat d row 1 ∧ toFloat d row 1 ≤ 100) :
    CorrectStatistics clock.now texts.length (exactLatestScores d clock texts) ↔
      (∃ row ∈ texts, toFloat d row 1 < 100) ∧
        ((∃ row ∈ texts, 0 < toFloat d row 1) ∨ ∃ row ∈ texts, textAt row 0 = "") := by
  have hrecords : texts.map (scoreSummary d clock) ≠ [] := by simpa using hne
  obtain ⟨t, ht, hstats⟩ := exists_totals maxScoreConstant hrecords
  have hlimit : 0 < maxScoreConstant := by
    rw [maxScoreConstant_eq]
    norm_num
  have hrange : ∀ r ∈ texts.map (scoreSummary d clock),
      0 ≤ r.score ∧ r.score ≤ maxScoreConstant := by
    rw [maxScoreConstant_eq]
    exact List.forall_mem_map.mpr hscore
  have hrows : ∀ P : ServerScoreSummary → Prop,
      (∃ r ∈ texts.map (scoreSummary d clock), P r) ↔ ∃ row ∈ texts, P (scoreSummary d clock row) :=
    fun P => by simp only [List.mem_map, exists_exists_and_eq_and]
  have hends := extremes_iff ht hlimit hrange
  rw [hrows fun r => r.score < maxScoreConstant, hrows fun r => 0 < r.score,
    hrows fun r => r.serverName = "", maxScoreConstant_eq] at hends
  refine Iff.trans ?_ hends
  rw [← maxScoreConstant_eq]
  have hanswer := congrArg (LatestScores.mk (texts.map (scoreSummary d clock)) · "") hstats
  rw [show exactLatestScores d clock texts = _ from hanswer]
  constructor
  · exact fun h => ⟨h.best, h.worst⟩
  · rintro ⟨hbest, hworst⟩
    have hleast : ∀ r ∈ texts.map (scoreSummary d clock),
        (if t.minScore < maxScoreConstant then t.minScore else 0) ≤ r.score := by
      intro r hr
      split
      · exact ht.least r hr
      · exact (hrange r hr).1
    exact
      { greatest := ht.greatest
        best := hbest
        least := hleast
        worst := hworst
        average := mean_mem hrecords hleast ht.greatest
        status := List.forall_mem_map.mpr fun row _ => by
          simp only [scoreSummary]
          split <;> simp <;> omega
        online := congrArg Nat.cast ht.online
        split := by
          rw [← ht.split]
          exact (Nat.cast_add _ _).symm
        total := by rw [List.length_map] }

/-- A row of a server that has just been heard of. -/
def scoredRow (d : ExactDialect) (name : String) (score : ℚ) : List String :=
  [name, d.fetch (.num score), ""]

theorem toFloat_scoredRow (d : ExactDialect) (name : String) (score : ℚ) :
    toFloat d (scoredRow d name score) 1 = score := by
  have htext : textAt (scoredRow d name score) 1 = d.fetch (.num score) := rfl
  rw [toFloat, htext, if_neg (d.fetch_rat rfl), d.read_fetch rfl]

/-- The statistics of a server with half of the points and one with all of them. -/
theorem correctStatistics_two :
    CorrectStatistics 0 2 (exactLatestScores .reference ⟨fun _ => 0, 0⟩
      [scoredRow .reference "web-01" 50, scoredRow .reference "web-02" 100]) := by
  refine (correctStatistics_iff .reference ⟨fun _ => 0, 0⟩
    [scoredRow .reference "web-01" 50, scoredRow .reference "web-02" 100] (List.cons_ne_nil _ _)
    ?_).mpr ⟨⟨_, List.mem_cons_self, ?_⟩, .inl ⟨_, List.mem_cons_self, ?_⟩⟩
  · simp only [List.forall_mem_cons, toFloat_scoredRow]
    norm_num
  · rw [toFloat_scoredRow]
    norm_num
  · rw [toFloat_scoredRow]
    norm_num

/-- **Where all servers have a hundred, the least score is given as zero**, and no server has
it. -/
theorem hundred_not_least :
    (exactLatestScores .reference ⟨fun _ => 0, 0⟩
        [scoredRow .reference "web-01" 100]).stats.minScore = 0 ∧
      (exactLatestScores .reference ⟨fun _ => 0, 0⟩
        [scoredRow .reference "web-01" 100]).stats.worstServer = "" ∧
      ¬ CorrectStatistics 0 1 (exactLatestScores .reference ⟨fun _ => 0, 0⟩
        [scoredRow .reference "web-01" 100]) := by
  have hscore : ∀ r ∈ (exactLatestScores .reference ⟨fun _ => 0, 0⟩
      [scoredRow .reference "web-01" 100]).records, r.score = 100 := by
    intro r hr
    obtain rfl := List.mem_singleton.mp hr
    exact toFloat_scoredRow .reference "web-01" 100
  have hstats : ∀ stats, clusterStatsFrom .exact maxScoreConstant
      [scoreSummary .reference ⟨fun _ => 0, 0⟩ (scoredRow .reference "web-01" 100)] = stats →
      stats.minScore = 0 ∧ stats.worstServer = "" := by
    rintro _ rfl
    have hfull : (scoreSummary .reference ⟨fun _ => 0, 0⟩
        (scoredRow .reference "web-01" 100)).score = 100 :=
      toFloat_scoredRow .reference "web-01" 100
    simp [clusterStatsFrom, ScoreTotals.add, maxScoreConstant_eq, hfull]
  obtain ⟨hmin, hworst⟩ := hstats _ rfl
  refine ⟨hmin, hworst, fun h => ?_⟩
  obtain ⟨r, hr, -, hleast⟩ := h.worst
  have hzero : (100 : ℚ) = 0 := (hscore r hr).symm.trans (hleast.trans hmin)
  norm_num at hzero

end Correct

end MonitorSystem
