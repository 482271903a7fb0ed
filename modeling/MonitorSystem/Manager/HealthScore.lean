import MonitorSystem.Manager.HostManager
import Mathlib.Algebra.Order.Field.Rat
import Mathlib.Data.List.Forall2
import Mathlib.Order.Lattice
import Mathlib.Tactic.GCongr
import Mathlib.Tactic.Linarith
import Mathlib.Tactic.NormNum
import Mathlib.Tactic.Positivity

/-!
# The law of the health score

`HostManager::calculateScore` (`manager/src/HostManager.cpp`) with its `double`s read as exact
numbers. The score is a weighted mean of five parts, each of them the share of a resource that
is left (`remaining`), cut off to lie between zero and one. From this it lies between 0 and 100
(`calculateScore_mem`), it does not rise when a reading gets worse (`calculateScore_le`), and
it does not rise with one more disk or fall with one more core.

A disk of negative utilisation counts as much as no disk at all, which is why the greatest
utilisation may be taken over the disks alone (`remaining_maxUtil`).
-/

namespace MonitorSystem

open MonitorInfo

/-! ### The share that is left -/

/-- What is left of a resource, between zero and one. -/
def remaining (used capacity : ℚ) : ℚ := max 0 (min 1 (1 - used / capacity))

theorem clamp_eq (value : ℚ) : clamp value = max 0 (min 1 value) := by
  unfold clamp
  split_ifs with hneg hlarge
  · rw [max_eq_left ((min_le_right 1 value).trans hneg.le)]
  · rw [min_eq_left hlarge.le, max_eq_right zero_le_one]
  · rw [min_eq_right (not_lt.mp hlarge), max_eq_right (not_lt.mp hneg)]

theorem remaining_nonneg (used capacity : ℚ) : 0 ≤ remaining used capacity := le_max_left _ _

theorem remaining_le_one (used capacity : ℚ) : remaining used capacity ≤ 1 :=
  max_le zero_le_one (min_le_left _ _)

theorem remaining_anti {capacity used used' : ℚ} (hcapacity : 0 < capacity)
    (h : used ≤ used') : remaining used' capacity ≤ remaining used capacity := by
  unfold remaining
  gcongr

theorem remaining_mono {used capacity capacity' : ℚ} (hused : 0 ≤ used)
    (hcapacity : 0 < capacity) (h : capacity ≤ capacity') :
    remaining used capacity ≤ remaining used capacity' := by
  unfold remaining
  gcongr

theorem remaining_of_nonpos {used capacity : ℚ} (hused : used ≤ 0) (hcapacity : 0 < capacity) :
    remaining used capacity = 1 := by
  have hquot : used / capacity ≤ 0 := div_nonpos_of_nonpos_of_nonneg hused hcapacity.le
  rw [remaining, min_eq_left (by linarith), max_eq_right zero_le_one]

/-! ### The greatest utilisation -/

theorem maxUtil_eq_foldl_max (utils : List ℚ) : maxUtil utils = utils.foldl max 0 := by
  unfold maxUtil
  congr 1
  funext best util
  split_ifs with h
  · exact (max_eq_right h.le).symm
  · exact (max_eq_left (not_lt.mp h)).symm

theorem foldl_max (utils : List ℚ) (a b : ℚ) :
    utils.foldl max (max a b) = max a (utils.foldl max b) := by
  induction utils generalizing b with
  | nil => rfl
  | cons util utils ih => rw [List.foldl_cons, max_assoc, ih, List.foldl_cons]

/-- The greatest utilisation is that of the disks, if it is positive. -/
theorem maxUtil_eq (utils : List ℚ) : maxUtil utils = max 0 (utils.max?.getD 0) := by
  rw [maxUtil_eq_foldl_max]
  cases utils with
  | nil => rfl
  | cons util utils =>
    rw [List.max?_cons', Option.getD_some, List.foldl_cons]
    exact foldl_max utils 0 util

theorem maxUtil_append (utils : List ℚ) (util : ℚ) :
    maxUtil (utils ++ [util]) = max (maxUtil utils) util := by
  simp only [maxUtil_eq_foldl_max, List.foldl_append, List.foldl_cons, List.foldl_nil]

theorem maxUtil_mono {utils utils' : List ℚ} (h : List.Forall₂ (· ≤ ·) utils utils') :
    maxUtil utils ≤ maxUtil utils' := by
  rw [maxUtil_eq_foldl_max, maxUtil_eq_foldl_max]
  have hgrow : ∀ best best' : ℚ, best ≤ best' → utils.foldl max best ≤ utils'.foldl max best' := by
    induction h with
    | nil => exact fun _ _ hbest => hbest
    | cons hutil _ ih => exact fun _ _ hbest => ih _ _ (max_le_max hbest hutil)
  exact hgrow 0 0 le_rfl

/-- What the disks leave depends on the greatest of their utilisations alone. -/
theorem remaining_maxUtil (utils : List ℚ) :
    remaining (maxUtil utils) 100 = remaining (utils.max?.getD 0) 100 := by
  rw [maxUtil_eq]
  rcases le_total (utils.max?.getD 0) 0 with hneg | hpos
  · rw [max_eq_left hneg, remaining_of_nonpos hneg (by norm_num),
      remaining_of_nonpos le_rfl (by norm_num)]
  · rw [max_eq_right hpos]

/-! ### The weighted mean -/

/-- The CPU usage of a push. -/
def MonitorInfo.cpuUsage (info : MonitorInfo) : ℚ :=
  (info.selectAggregateCpuStat.map (·.cpuPercent)).getD 0

/-- The cores that the load is divided among. -/
def MonitorInfo.loadCores (info : MonitorInfo) : ℕ :=
  if info.selectAggregateCpuStat.isSome then info.countCpuCores else 1

/-- The load of a push. -/
def MonitorInfo.load (info : MonitorInfo) : ℚ := (info.cpuLoad.map (·.loadAvg1)).getD 0

/-- The memory usage of a push. -/
def MonitorInfo.memUsage (info : MonitorInfo) : ℚ := (info.memInfo.map (·.usedPercent)).getD 0

/-- The greatest disk utilisation of a push. -/
def MonitorInfo.diskUsage (info : MonitorInfo) : ℚ :=
  (info.diskInfo.map (·.utilPercent)).max?.getD 0

/-- What the first interface of a push receives. -/
def MonitorInfo.received (info : MonitorInfo) : ℚ := (info.netInfo.head?.map (·.rcvRate)).getD 0

/-- What it sends. -/
def MonitorInfo.sent (info : MonitorInfo) : ℚ := (info.netInfo.head?.map (·.sendRate)).getD 0

/-- What is left of the network. -/
def netRemaining (received sent : ℚ) : ℚ :=
  (remaining received 125000000 + remaining sent 125000000) / 2

/-- The weighted mean of what is left, in percent. -/
def healthScore (cpu mem load disk net : ℚ) : ℚ :=
  100 * (0.35 * cpu + 0.30 * mem + 0.15 * load + 0.15 * disk + 0.05 * net)

theorem healthScore_mono {cpu mem load disk net cpu' mem' load' disk' net' : ℚ}
    (hcpu : cpu ≤ cpu') (hmem : mem ≤ mem') (hload : load ≤ load') (hdisk : disk ≤ disk')
    (hnet : net ≤ net') :
    healthScore cpu mem load disk net ≤ healthScore cpu' mem' load' disk' net' := by
  unfold healthScore
  gcongr

theorem netRemaining_mem (received sent : ℚ) :
    0 ≤ netRemaining received sent ∧ netRemaining received sent ≤ 1 := by
  have hrcv := remaining_nonneg received 125000000
  have hsent := remaining_nonneg sent 125000000
  have hrcv' := remaining_le_one received 125000000
  have hsent' := remaining_le_one sent 125000000
  unfold netRemaining
  constructor <;> linarith

theorem netRemaining_anti {received sent received' sent' : ℚ} (hrcv : received ≤ received')
    (hsent : sent ≤ sent') : netRemaining received' sent' ≤ netRemaining received sent := by
  have h := remaining_anti (show (0 : ℚ) < 125000000 by norm_num) hrcv
  have h' := remaining_anti (show (0 : ℚ) < 125000000 by norm_num) hsent
  unfold netRemaining
  linarith

section Score

variable (info : MonitorInfo)

theorem loadCores_pos : 0 < info.loadCores := by
  unfold loadCores countCpuCores
  dsimp only
  split_ifs <;> omega

theorem loadCapacity_pos : 0 < (info.loadCores : ℚ) * 1.5 := by
  have hcores : (0 : ℚ) < info.loadCores := by exact_mod_cast loadCores_pos info
  positivity

/-- The mean of the parts of a push, before it is cut off. -/
def MonitorInfo.meanRemaining : ℚ :=
  healthScore (remaining info.cpuUsage 100) (remaining info.memUsage 100)
    (remaining info.load (info.loadCores * 1.5)) (remaining info.diskUsage 100)
    (netRemaining info.received info.sent)

theorem meanRemaining_mem : 0 ≤ info.meanRemaining ∧ info.meanRemaining ≤ 100 := by
  have hnet := netRemaining_mem info.received info.sent
  constructor
  · calc (0 : ℚ) = healthScore 0 0 0 0 0 := by norm_num [healthScore]
      _ ≤ info.meanRemaining :=
        healthScore_mono (remaining_nonneg _ _) (remaining_nonneg _ _) (remaining_nonneg _ _)
          (remaining_nonneg _ _) hnet.1
  · calc info.meanRemaining ≤ healthScore 1 1 1 1 1 :=
        healthScore_mono (remaining_le_one _ _) (remaining_le_one _ _) (remaining_le_one _ _)
          (remaining_le_one _ _) hnet.2
      _ = 100 := by norm_num [healthScore]

/-- **What the score is.** The mean never leaves the range that it is cut off to. -/
theorem calculateScore_eq : calculateScore .exact info = info.meanRemaining := by
  have hpart : ∀ value scale, clamp (1 - value / scale) = remaining value scale :=
    fun value scale => clamp_eq _
  have hscore : ∀ mean : ℚ, 0 ≤ mean → mean ≤ 100 →
      (if mean < 0 then 0 else if 100 < mean then 100 else mean) = mean := by
    intro mean hpos hle
    rw [if_neg (not_lt.mpr hpos), if_neg (not_lt.mpr hle)]
  obtain ⟨hpos, hle⟩ := meanRemaining_mem info
  rw [← hscore _ hpos hle]
  have hmean : (0.35 * remaining info.cpuUsage 100 + 0.30 * remaining info.memUsage 100 +
      0.15 * remaining info.load (info.loadCores * 1.5) + 0.15 * remaining info.diskUsage 100 +
      0.05 * netRemaining info.received info.sent) * 100 = info.meanRemaining := mul_comm _ _
  simp only [calculateScore, Platform.dmul, Platform.dadd, Platform.dsub, Platform.ddiv,
    Platform.exact, id, hpart, remaining_maxUtil]
  rw [← hmean]
  rfl

/-! ### Worse readings -/

/-- Two pushes with the same entries, of which the second reports nothing better. -/
structure NoBetter (info info' : MonitorInfo) : Prop where
  names : info'.cpuStat.map (·.cpuName) = info.cpuStat.map (·.cpuName)
  cpu : Option.Rel (fun c c' => c.cpuPercent ≤ c'.cpuPercent) info.selectAggregateCpuStat
    info'.selectAggregateCpuStat
  load : Option.Rel (fun l l' => l.loadAvg1 ≤ l'.loadAvg1) info.cpuLoad info'.cpuLoad
  mem : Option.Rel (fun m m' => m.usedPercent ≤ m'.usedPercent) info.memInfo info'.memInfo
  disk : List.Forall₂ (fun d d' => d.utilPercent ≤ d'.utilPercent) info.diskInfo info'.diskInfo
  net : Option.Rel (fun n n' => n.rcvRate ≤ n'.rcvRate ∧ n.sendRate ≤ n'.sendRate)
    info.netInfo.head? info'.netInfo.head?

/-- An optional reading that is no better, or missing in both. -/
theorem getD_le_of_rel {α : Type} {r : α → α → Prop} {f : α → ℚ} {o o' : Option α}
    (h : Option.Rel r o o') (hf : ∀ a a', r a a' → f a ≤ f a') :
    (o.map f).getD 0 ≤ (o'.map f).getD 0 := by
  cases h with
  | some h => exact hf _ _ h
  | none => exact le_rfl

theorem isSome_eq_of_rel {α : Type} {r : α → α → Prop} {o o' : Option α}
    (h : Option.Rel r o o') : o'.isSome = o.isSome := by
  cases h <;> rfl

theorem countCpuCores_eq :
    info.countCpuCores = max 1 ((info.cpuStat.map (·.cpuName)).countP isPerCoreCpuName) := by
  have hcount : (info.cpuStat.filter fun c => isPerCoreCpuName c.cpuName).length =
      (info.cpuStat.map (·.cpuName)).countP isPerCoreCpuName := by
    rw [List.countP_map, List.countP_eq_length_filter]
    rfl
  unfold countCpuCores
  rw [hcount]
  dsimp only
  split_ifs <;> omega

variable {info} {info' : MonitorInfo}

theorem NoBetter.loadCores_eq (h : NoBetter info info') : info'.loadCores = info.loadCores := by
  rw [loadCores, loadCores, isSome_eq_of_rel h.cpu, countCpuCores_eq, countCpuCores_eq, h.names]

theorem NoBetter.maxUtil_le (h : NoBetter info info') :
    maxUtil (info.diskInfo.map (·.utilPercent)) ≤ maxUtil (info'.diskInfo.map (·.utilPercent)) :=
  maxUtil_mono (List.forall₂_map_left_iff.mpr (List.forall₂_map_right_iff.mpr h.disk))

/-- **Worse readings do not raise the score.** -/
theorem calculateScore_le (h : NoBetter info info') :
    calculateScore .exact info' ≤ calculateScore .exact info := by
  rw [calculateScore_eq, calculateScore_eq]
  refine healthScore_mono ?_ ?_ ?_ ?_ ?_
  · exact remaining_anti (by norm_num) (getD_le_of_rel h.cpu fun _ _ hle => hle)
  · exact remaining_anti (by norm_num) (getD_le_of_rel h.mem fun _ _ hle => hle)
  · rw [h.loadCores_eq]
    exact remaining_anti (loadCapacity_pos info) (getD_le_of_rel h.load fun _ _ hle => hle)
  · rw [diskUsage, diskUsage, ← remaining_maxUtil, ← remaining_maxUtil]
    exact remaining_anti (by norm_num) h.maxUtil_le
  · exact netRemaining_anti (getD_le_of_rel h.net fun _ _ hle => hle.1)
      (getD_le_of_rel h.net fun _ _ hle => hle.2)

/-! ### More entries -/

/-- **One more disk does not raise the score.** -/
theorem calculateScore_append_disk (info : MonitorInfo) (d : DiskInfo) :
    calculateScore .exact { info with diskInfo := info.diskInfo ++ [d] } ≤
      calculateScore .exact info := by
  rw [calculateScore_eq, calculateScore_eq]
  refine healthScore_mono le_rfl le_rfl le_rfl ?_ le_rfl
  rw [diskUsage, diskUsage, ← remaining_maxUtil, ← remaining_maxUtil]
  refine remaining_anti (by norm_num) ?_
  rw [List.map_append, List.map_singleton, maxUtil_append]
  exact le_max_left _ _

/-- **One more CPU entry does not lower the score**, unless it becomes the aggregate entry or
the load is negative. -/
theorem calculateScore_insert_core {before after : List CpuStat} {core : CpuStat}
    (hcpu : info.cpuStat = before ++ after)
    (hsame : ({ info with cpuStat := before ++ core :: after } :
      MonitorInfo).selectAggregateCpuStat = info.selectAggregateCpuStat)
    (hload : 0 ≤ info.load) :
    calculateScore .exact info ≤
      calculateScore .exact { info with cpuStat := before ++ core :: after } := by
  rw [calculateScore_eq, calculateScore_eq]
  refine healthScore_mono ?_ le_rfl ?_ le_rfl le_rfl
  · rw [cpuUsage, cpuUsage, hsame]
  · refine remaining_mono hload (loadCapacity_pos info) ?_
    have hcores : info.loadCores ≤
        ({ info with cpuStat := before ++ core :: after } : MonitorInfo).loadCores := by
      rw [loadCores, loadCores, hsame]
      split_ifs
      · rw [countCpuCores_eq, countCpuCores_eq, hcpu]
        simp only [List.map_append, List.map_cons, List.countP_append, List.countP_cons]
        omega
      · exact le_rfl
    have hcast : (info.loadCores : ℚ) ≤
        ({ info with cpuStat := before ++ core :: after } : MonitorInfo).loadCores := by
      exact_mod_cast hcores
    gcongr

end Score

/-- **The law of the health score.** For every push the score lies between 0 and 100 and is
the weighted sum of what is left of the CPU, the memory, the load, the disks and the first
interface; it does not rise when readings get worse or a disk is appended, and does not fall
when a CPU entry is added, of a core or any other, as long as the aggregate entry stays the
same. -/
theorem healthScore_law (info : MonitorInfo) :
    (0 ≤ calculateScore .exact info ∧ calculateScore .exact info ≤ 100) ∧
    calculateScore .exact info =
      100 * (0.35 * remaining info.cpuUsage 100 + 0.30 * remaining info.memUsage 100 +
        0.15 * remaining info.load (info.loadCores * 1.5) + 0.15 * remaining info.diskUsage 100 +
        0.05 * ((remaining info.received 125000000 + remaining info.sent 125000000) / 2)) ∧
    (∀ info', NoBetter info info' →
      calculateScore .exact info' ≤ calculateScore .exact info) ∧
    (∀ d, calculateScore .exact { info with diskInfo := info.diskInfo ++ [d] } ≤
      calculateScore .exact info) ∧
    ∀ before after core, info.cpuStat = before ++ after →
      ({ info with cpuStat := before ++ core :: after } :
        MonitorInfo).selectAggregateCpuStat = info.selectAggregateCpuStat →
      0 ≤ info.load →
      calculateScore .exact info ≤
        calculateScore .exact { info with cpuStat := before ++ core :: after } := by
  refine ⟨?_, calculateScore_eq info, fun _ h => calculateScore_le h,
    calculateScore_append_disk info,
    fun _ _ _ hcpu hsame hload => calculateScore_insert_core hcpu hsame hload⟩
  rw [calculateScore_eq]
  exact meanRemaining_mem info

end MonitorSystem
