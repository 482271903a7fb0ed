import MonitorSystem.Library.Keyed
import MonitorSystem.Manager.MonitorInfo
import MonitorSystem.Worker.NetStats
import Mathlib.Algebra.Order.Field.Basic
import Mathlib.Tactic.Linarith
import Mathlib.Tactic.NormNum
import Mathlib.Tactic.Positivity
import Mathlib.Tactic.Ring

/-!
# The two collectors of the network traffic

A worker reports the rates of its interfaces either from `/proc/net/dev` (`NetMonitor`) or from
the counters in the kernel (`NetEbpfMonitor`); which of the two is decided when it is deployed.
Both remember the last counters of each interface and publish what has been gained since, per
second. They differ in three ways: the first one divides bytes by 1024, the second one rounds
down to integers, and where a counter seems to have gone down, the first one takes the
difference modulo `2 ^ 64` and the second one the counter itself.

`collectors_agree_iff` says for which readings this cannot be seen. Times are in nanoseconds,
and floating-point values are read as exact numbers.
-/

namespace MonitorSystem

/-! ### `/proc/net/dev` -/

/-- A line of `/proc/net/dev`: the first word and the numbers after it. -/
structure ProcLine where
  iface : String
  numbers : List UInt64

/-- `NetStat`: the counters of an interface. -/
structure NetStat where
  name : String
  counters : NetStats
  errIn : UInt64
  errOut : UInt64
  dropIn : UInt64
  dropOut : UInt64
  deriving DecidableEq, Repr

namespace NetMonitor

/-- The name of an interface, without the colon after it. -/
def ifaceName (iface : String) : String :=
  if iface.toList.getLast? = some ':' then String.ofList iface.toList.dropLast else iface

/-- What is read from a line; the loopback interface is left out. -/
def netStat (line : ProcLine) : Option NetStat :=
  let number (i : ℕ) := line.numbers.getD i 0
  if line.iface = "" ∨ ifaceName line.iface = "lo" then none
  else some
    { name := ifaceName line.iface
      counters :=
        { rcvBytes := number 0
          rcvPackets := number 1
          sndBytes := number 8
          sndPackets := number 9 }
      errIn := number 2
      dropIn := number 3
      errOut := number 10
      dropOut := number 11 }

/-- `GetNetStatsFromProc`. -/
def getNetStatsFromProc (lines : List ProcLine) : List NetStat := lines.filterMap netStat

/-- `lastNetInfo_`: the last counters of each interface, with their time. -/
abbrev LastNetInfo := String → Option (NetStat × ℤ)

/-- What is published of an interface. -/
def publish (now : ℤ) (stat : NetStat) (last : Option (NetStat × ℤ)) : NetInfo :=
  let info : NetInfo :=
    { name := stat.name
      errIn := stat.errIn
      errOut := stat.errOut
      dropIn := stat.dropIn
      dropOut := stat.dropOut }
  match last with
  | none => info
  | some (old, timepoint) =>
    let dt : ℚ := ((now - timepoint : ℤ) : ℚ) / 1000000000
    let gain (now old : UInt64) : ℚ := ((now - old).toNat : ℚ)
    if 0 < dt then
      { info with
        rcvRate := gain stat.counters.rcvBytes old.counters.rcvBytes / 1024 / dt
        rcvPacketsRate := gain stat.counters.rcvPackets old.counters.rcvPackets / dt
        sendRate := gain stat.counters.sndBytes old.counters.sndBytes / 1024 / dt
        sendPacketsRate := gain stat.counters.sndPackets old.counters.sndPackets / dt }
    else info

/-- **`NetMonitor::updateOnce`**: the interfaces are published one by one, each against its last
counters. -/
def updateOnce (last : LastNetInfo) (now : ℤ) (lines : List ProcLine) :
    LastNetInfo × List NetInfo :=
  let r := Keyed.run NetStat.name (fun l stat => (some (stat, now), publish now stat l)) last
    (getNetStatsFromProc lines)
  (r.1, r.2.map (·.2))

/-- What is published of an interface that is listed once. -/
theorem updateOnce_of_single (last : LastNetInfo) (now : ℤ) {lines : List ProcLine}
    {stat : NetStat}
    (h : (getNetStatsFromProc lines).filter (fun s => s.name = stat.name) = [stat]) :
    (updateOnce last now lines).2.filter (fun n => n.name = stat.name) =
        [publish now stat (last stat.name)] ∧
      (updateOnce last now lines).1 stat.name = some (stat, now) := by
  have hname : ∀ (s : NetStat) (l : Option (NetStat × ℤ)), (publish now s l).name = s.name := by
    intro s l
    unfold publish
    cases l with
    | none => rfl
    | some l =>
      dsimp only
      split <;> rfl
  have hshows : ∀ l s, (publish now s l).name = stat.name ↔ s.name = stat.name := by
    intro l s
    rw [hname]
  exact Keyed.run_single_shown hshows rfl h

end NetMonitor

/-! ### The counters in the kernel -/

/-- What the second collector remembers. -/
structure NetEbpfMonitor where
  cache : UInt32 → Option (NetStats × ℤ)
  ifnameCache : UInt32 → Option String
  loaded : Bool

namespace NetEbpfMonitor

/-- `getIfName`, with the kernel's table of the interfaces; empty for an unknown one. -/
def getIfName (m : NetEbpfMonitor) (ifIndexToName : UInt32 → Option String) (ifindex : UInt32) :
    String :=
  match m.ifnameCache ifindex with
  | some name => name
  | none => (ifIndexToName ifindex).getD ""

/-- What a counter has gained, as a signed number; the counter itself if this is negative. -/
def counterDiff (now old : UInt64) : Int64 :=
  let diff := (now - old).toInt64
  if diff < 0 then now.toInt64 else diff

/-- The gain per second, in integers. -/
def perSecond (now old : UInt64) (oldDuration : ℤ) : Int64 :=
  counterDiff now old * 1000 / Int64.ofInt oldDuration

/-- What is published of an interface. -/
def publish (now : ℤ) (ifname : String) (stats : NetStats) (old : Option (NetStats × ℤ)) :
    NetInfo :=
  match old with
  | none => { name := ifname }
  | some (old, timestamp) =>
    let oldDuration := (now - timestamp).tdiv 1000000
    if 0 < oldDuration then
      { name := ifname
        rcvRate := (perSecond stats.rcvBytes old.rcvBytes oldDuration).toInt
        sendRate := (perSecond stats.sndBytes old.sndBytes oldDuration).toInt
        rcvPacketsRate := (perSecond stats.rcvPackets old.rcvPackets oldDuration).toInt
        sendPacketsRate := (perSecond stats.sndPackets old.sndPackets oldDuration).toInt }
    else { name := ifname }

/-- **`NetEbpfMonitor::updateOnce`**, with the records of the map. -/
def updateOnce (m : NetEbpfMonitor) (ifIndexToName : UInt32 → Option String) (now : ℤ)
    (entries : List (UInt32 × NetStats)) : NetEbpfMonitor × List NetInfo :=
  if m.loaded then
    let ifname := m.getIfName ifIndexToName
    let shown := entries.filter fun e => ifname e.1 ≠ "" ∧ ifname e.1 ≠ "lo"
    let r := Keyed.run Prod.fst
      (fun old e => (some (e.2, now), publish now (ifname e.1) e.2 old)) m.cache shown
    ({ m with
        cache := r.1
        ifnameCache := fun i =>
          if i ∈ entries.map (·.1) ∧ m.ifnameCache i = none then ifIndexToName i
          else m.ifnameCache i },
      r.2.map (·.2))
  else (m, [])

/-- The names that are remembered are those of the kernel. -/
def Named (m : NetEbpfMonitor) (ifIndexToName : UInt32 → Option String) : Prop :=
  ∀ i name, m.ifnameCache i = some name → ifIndexToName i = some name

variable {m : NetEbpfMonitor} {ifIndexToName : UInt32 → Option String}

theorem Named.getIfName (h : m.Named ifIndexToName) (i : UInt32) :
    m.getIfName ifIndexToName i = (ifIndexToName i).getD "" := by
  unfold NetEbpfMonitor.getIfName
  cases hcache : m.ifnameCache i with
  | none => rfl
  | some name => rw [h i name hcache, Option.getD_some]

theorem Named.updateOnce (h : m.Named ifIndexToName) (now : ℤ)
    (entries : List (UInt32 × NetStats)) :
    (m.updateOnce ifIndexToName now entries).1.Named ifIndexToName := by
  intro i name hname
  unfold NetEbpfMonitor.updateOnce at hname
  split at hname
  · dsimp only at hname
    split at hname
    · exact hname
    · exact h i name hname
  · exact h i name hname

theorem publish_name (now : ℤ) (ifname : String) (stats : NetStats)
    (old : Option (NetStats × ℤ)) : (publish now ifname stats old).name = ifname := by
  unfold publish
  cases old with
  | none => rfl
  | some old =>
    dsimp only
    split <;> rfl

/-- What is published of an interface with a record. -/
theorem updateOnce_of_single (hloaded : m.loaded = true) (h : m.Named ifIndexToName) {i : UInt32}
    {name : String} (hi : ifIndexToName i = some name)
    (honly : ∀ j, ifIndexToName j = some name → j = i) (hempty : name ≠ "") (hlo : name ≠ "lo")
    (now : ℤ) {entries : List (UInt32 × NetStats)} {stats : NetStats}
    (hentry : entries.filter (fun e => e.1 = i) = [(i, stats)]) :
    (m.updateOnce ifIndexToName now entries).2.filter (fun n => n.name = name) =
        [publish now name stats (m.cache i)] ∧
      (m.updateOnce ifIndexToName now entries).1.cache i = some (stats, now) ∧
      (m.updateOnce ifIndexToName now entries).1.loaded = true := by
  have hname : m.getIfName ifIndexToName i = name := by rw [h.getIfName, hi, Option.getD_some]
  have hiff : ∀ j, m.getIfName ifIndexToName j = name ↔ j = i := by
    intro j
    refine ⟨fun hj => ?_, fun hj => hj ▸ hname⟩
    rw [h.getIfName] at hj
    cases hkernel : ifIndexToName j with
    | none => exact absurd (by rw [hkernel] at hj; exact hj.symm) hempty
    | some other => exact honly j (by rw [hkernel] at hj ⊢; exact congrArg some hj)
  have hshown : (entries.filter fun e => m.getIfName ifIndexToName e.1 ≠ "" ∧
      m.getIfName ifIndexToName e.1 ≠ "lo").filter (fun e => e.1 = i) = [(i, stats)] := by
    rw [List.filter_filter, ← hentry]
    refine List.filter_congr fun e _ => ?_
    by_cases he : e.1 = i
    · simp [he, hname, hempty, hlo]
    · simp [he]
  have hshows : ∀ (old : Option (NetStats × ℤ)) (e : UInt32 × NetStats),
      (publish now (m.getIfName ifIndexToName e.1) e.2 old).name = name ↔ e.1 = i := by
    intro old e
    rw [publish_name, hiff]
  obtain ⟨hout, hstate⟩ := Keyed.run_single_shown (i := (i, stats)) (m := m.cache) (k := i)
    (f := fun old e => (some (e.2, now), publish now (m.getIfName ifIndexToName e.1) e.2 old))
    (q := fun n : NetInfo => n.name = name) hshows rfl hshown
  rw [updateOnce, if_pos hloaded]
  refine ⟨hout.trans ?_, hstate, hloaded⟩
  rw [hname]

/-! ### What is published against what has been gained -/

theorem toInt_toInt64 (n : UInt64) : n.toInt64.toInt = (n.toNat : ℤ).bmod (2 ^ 64) := by
  rw [← UInt64.ofNat_toNat (x := n), UInt64.toInt64_ofNat', Int64.toInt_ofNat']
  simp

theorem toInt_ofInt_natCast {ms : ℕ} (h : ms < 2 ^ 63) : (Int64.ofInt ms).toInt = ms :=
  Int64.toInt_ofInt_of_le (by omega) (by omega)

theorem toInt_thousand : (1000 : Int64).toInt = 1000 := by decide

variable {now old : UInt64} {ms : ℕ}

/-- A gain that fits is divided as it is. -/
theorem perSecond_of_lt (hms : ms < 2 ^ 63) (h : (now - old).toNat * 1000 < 2 ^ 63) :
    (perSecond now old ms).toInt = ((now - old).toNat * 1000 / ms : ℕ) := by
  have hgain : (now - old).toInt64.toInt = (now - old).toNat := by
    rw [toInt_toInt64, Int.bmod_eq_of_le] <;> omega
  have hnonneg : ¬ (now - old).toInt64 < 0 := by
    rw [Int64.lt_iff_toInt_lt, hgain]
    simp
  have hdiff : (counterDiff now old).toInt = (now - old).toNat := by
    rw [counterDiff, if_neg hnonneg, hgain]
  have hmul : (counterDiff now old * 1000).toInt = ((now - old).toNat * 1000 : ℕ) := by
    rw [Int64.toInt_mul, hdiff, toInt_thousand, Int.bmod_eq_of_le] <;> omega
  have hle : (now - old).toNat * 1000 / ms ≤ (now - old).toNat * 1000 := Nat.div_le_self _ _
  rw [perSecond, Int64.toInt_div, hmul, toInt_ofInt_natCast hms, ← Int.ofNat_tdiv]
  generalize (now - old).toNat * 1000 / ms = quotient at hle ⊢
  exact Int.bmod_eq_of_le (by omega) (by omega)

/-- A gain that does not fit leaves a number below it by one per second at least. -/
theorem perSecond_of_ge (hpos : 0 < ms) (hms : ms < 2 ^ 63)
    (h : 2 ^ 63 ≤ (now - old).toNat * 1000) :
    (perSecond now old ms).toInt * ms + ms ≤ (now - old).toNat * 1000 := by
  have hlt := (now - old).toNat_lt
  -- the product is below the true one by at least `2 ^ 64`
  have hmul : (counterDiff now old * 1000).toInt + 2 ^ 64 ≤ (now - old).toNat * 1000 := by
    by_cases hneg : (now - old).toInt64 < 0
    · rw [Int64.lt_iff_toInt_lt, toInt_toInt64] at hneg
      have hlarge : 2 ^ 63 ≤ (now - old).toNat := by
        by_contra hsmall
        rw [Int.bmod_eq_of_le (by omega) (by omega)] at hneg
        simp at hneg
        omega
      have := (counterDiff now old * 1000).toInt_lt
      omega
    · have hdiff : counterDiff now old = (now - old).toInt64 := if_neg hneg
      have hzero : (0 : Int64).toInt = 0 := by decide
      have hgain : ((now - old).toNat : ℤ).bmod (2 ^ 64) = (now - old).toNat := by
        rw [Int64.lt_iff_toInt_lt, toInt_toInt64, hzero] at hneg
        rw [Int.bmod_def] at hneg ⊢
        split at hneg <;> split <;> omega
      rw [hdiff, Int64.toInt_mul, toInt_toInt64, toInt_thousand, hgain, Int.bmod_def]
      split <;> omega
  have hne : Int64.ofInt ms ≠ -1 := by
    intro hcon
    have hms := toInt_ofInt_natCast hms
    rw [hcon, show (-1 : Int64).toInt = -1 by decide] at hms
    omega
  have hquot := Int.tdiv_mul_le (counterDiff now old * 1000).toInt (b := (ms : ℤ)) (by omega)
  rw [perSecond, Int64.toInt_div_of_ne_right _ _ hne, toInt_ofInt_natCast hms]
  split at hquot <;> omega

end NetEbpfMonitor

/-! ### When the collectors agree -/

/-- What a counter gains per second, modulo `2 ^ 64`. -/
def gainPerSecond (now old : UInt64) (ms : ℕ) : ℚ := ((now - old).toNat : ℚ) * 1000 / ms

/-- **Two collectors publish the same of an interface**, up to rounding to integers and with
the bytes in bytes per second. -/
structure CollectorsAgree (old now : NetStats) (ms : ℕ) (proc ebpf : NetInfo) : Prop where
  rcvPacketsRate : |proc.rcvPacketsRate - ebpf.rcvPacketsRate| < 1
  sendPacketsRate : |proc.sendPacketsRate - ebpf.sendPacketsRate| < 1
  rcvRate : |proc.rcvRate - ebpf.rcvRate| < 1
  sendRate : |proc.sendRate - ebpf.sendRate| < 1
  rcvUnit : |proc.rcvRate - gainPerSecond now.rcvBytes old.rcvBytes ms| < 1 ∧
    |ebpf.rcvRate - gainPerSecond now.rcvBytes old.rcvBytes ms| < 1
  sendUnit : |proc.sendRate - gainPerSecond now.sndBytes old.sndBytes ms| < 1 ∧
    |ebpf.sendRate - gainPerSecond now.sndBytes old.sndBytes ms| < 1

section Agree

variable {now old : UInt64} {ms : ℕ}

/-- The gain of a counter as a multiple of the milliseconds. -/
theorem gainPerSecond_mul (hpos : 0 < ms) :
    gainPerSecond now old ms * ms = (now - old).toNat * 1000 := by
  have hne : (ms : ℚ) ≠ 0 := by exact_mod_cast hpos.ne'
  rw [gainPerSecond, div_mul_cancel₀ _ hne]

/-- An integer rate that fits is the gain, rounded down. -/
theorem perSecond_le_gain (hpos : 0 < ms) (hms : ms < 2 ^ 63)
    (h : (now - old).toNat * 1000 < 2 ^ 63) :
    ((NetEbpfMonitor.perSecond now old ms).toInt : ℚ) ≤ gainPerSecond now old ms ∧
      gainPerSecond now old ms < (NetEbpfMonitor.perSecond now old ms).toInt + 1 := by
  have hpos' : (0 : ℚ) < ms := by exact_mod_cast hpos
  rw [NetEbpfMonitor.perSecond_of_lt hms h, gainPerSecond, le_div_iff₀ hpos', div_lt_iff₀ hpos']
  constructor
  · exact_mod_cast Nat.div_mul_le_self ((now - old).toNat * 1000) ms
  · exact_mod_cast (Nat.div_lt_iff_lt_mul hpos).mp (Nat.lt_succ_self _)

/-- One that does not fit is off by one at least. -/
theorem add_one_le_gain (hpos : 0 < ms) (hms : ms < 2 ^ 63)
    (h : 2 ^ 63 ≤ (now - old).toNat * 1000) :
    ((NetEbpfMonitor.perSecond now old ms).toInt : ℚ) + 1 ≤ gainPerSecond now old ms := by
  have hpos' : (0 : ℚ) < ms := by exact_mod_cast hpos
  rw [gainPerSecond, le_div_iff₀ hpos', add_mul, one_mul]
  exact_mod_cast NetEbpfMonitor.perSecond_of_ge hpos hms h

/-- **The integer rate is the gain up to rounding if and only if it fits.** -/
theorem abs_gain_sub_lt_iff (hpos : 0 < ms) (hms : ms < 2 ^ 63) :
    |gainPerSecond now old ms - (NetEbpfMonitor.perSecond now old ms).toInt| < 1 ↔
      (now - old).toNat * 1000 < 2 ^ 63 := by
  rw [abs_lt]
  constructor
  · rintro ⟨-, hlt⟩
    by_contra hlarge
    have := add_one_le_gain hpos hms (not_lt.mp hlarge)
    linarith
  · intro h
    obtain ⟨hle, hlt⟩ := perSecond_le_gain hpos hms h
    constructor <;> linarith

/-- **The bytes agree if and only if there are hardly any.** -/
theorem bytes_agree_iff (hpos : 0 < ms) (hms : ms * 1000000 < 2 ^ 63) :
    (|gainPerSecond now old ms / 1024 - (NetEbpfMonitor.perSecond now old ms).toInt| < 1 ∧
      |gainPerSecond now old ms / 1024 - gainPerSecond now old ms| < 1 ∧
      |(NetEbpfMonitor.perSecond now old ms).toInt - gainPerSecond now old ms| < 1) ↔
      (now - old).toNat * 1023000 < 1024 * ms := by
  have hpos' : (0 : ℚ) < ms := by exact_mod_cast hpos
  have hnonneg : 0 ≤ gainPerSecond now old ms := by
    rw [gainPerSecond]
    positivity
  have hunit : gainPerSecond now old ms * 1023 < 1024 ↔
      (now - old).toNat * 1023000 < 1024 * ms := by
    rw [← mul_lt_mul_iff_left₀ hpos', mul_right_comm, gainPerSecond_mul hpos, mul_assoc]
    norm_num only
    exact_mod_cast Iff.rfl
  rw [← hunit]
  constructor
  · rintro ⟨-, hsub, -⟩
    rw [abs_lt] at hsub
    linarith
  · intro h
    have hfits : (now - old).toNat * 1000 < 2 ^ 63 :=
      calc (now - old).toNat * 1000
          ≤ (now - old).toNat * 1023000 := Nat.mul_le_mul_left _ (by decide)
        _ < 1024 * ms := hunit.mp h
        _ ≤ ms * 1000000 := by omega
        _ < 2 ^ 63 := hms
    obtain ⟨hle, hlt⟩ := perSecond_le_gain hpos (by omega) hfits
    simp only [abs_lt]
    refine ⟨⟨?_, ?_⟩, ⟨?_, ?_⟩, ?_, ?_⟩ <;> linarith

/-! ### The readings -/

/-- What the first collector publishes some milliseconds after its last reading. -/
theorem NetMonitor.publish_later (hpos : 0 < ms) (t : ℤ) (stat old : NetStat) :
    NetMonitor.publish (t + ms * 1000000) stat (some (old, t)) =
      { name := stat.name
        rcvRate := gainPerSecond stat.counters.rcvBytes old.counters.rcvBytes ms / 1024
        sendRate := gainPerSecond stat.counters.sndBytes old.counters.sndBytes ms / 1024
        rcvPacketsRate := gainPerSecond stat.counters.rcvPackets old.counters.rcvPackets ms
        sendPacketsRate := gainPerSecond stat.counters.sndPackets old.counters.sndPackets ms
        errIn := stat.errIn
        errOut := stat.errOut
        dropIn := stat.dropIn
        dropOut := stat.dropOut } := by
  have hpos' : (0 : ℚ) < ms := by exact_mod_cast hpos
  have hdt : ((t + ms * 1000000 - t : ℤ) : ℚ) / 1000000000 = ms / 1000 := by
    rw [add_sub_cancel_left]
    push_cast
    ring
  have hgain : ∀ now old : UInt64,
      ((now - old).toNat : ℚ) / (ms / 1000) = gainPerSecond now old ms := fun now old => by
    rw [gainPerSecond, div_div_eq_mul_div]
  have hpositive : (0 : ℚ) < ms / 1000 := by positivity
  simp only [publish, hdt, hpositive, if_true, hgain, div_right_comm _ (1024 : ℚ)]

/-- What the second one publishes. -/
theorem NetEbpfMonitor.publish_later (hpos : 0 < ms) (t : ℤ) (name : String)
    (stats old : NetStats) :
    NetEbpfMonitor.publish (t + ms * 1000000) name stats (some (old, t)) =
      { name
        rcvRate := (perSecond stats.rcvBytes old.rcvBytes ms).toInt
        sendRate := (perSecond stats.sndBytes old.sndBytes ms).toInt
        rcvPacketsRate := (perSecond stats.rcvPackets old.rcvPackets ms).toInt
        sendPacketsRate := (perSecond stats.sndPackets old.sndPackets ms).toInt } := by
  have hduration : (t + ms * 1000000 - t : ℤ).tdiv 1000000 = ms := by
    rw [add_sub_cancel_left]
    exact Int.mul_tdiv_cancel _ (by decide)
  simp only [publish, hduration]
  rw [if_pos (by exact_mod_cast hpos)]

end Agree

/-- One interface that has received some bytes. -/
def procReading (bytes : UInt64) : List ProcLine := [⟨"eth0:", bytes :: List.replicate 11 0⟩]

/-- The same in the map. -/
def mapReading (bytes : UInt64) : List (UInt32 × NetStats) := [(2, { rcvBytes := bytes })]

/-- The name of the only interface. -/
def onlyEth0 (ifindex : UInt32) : Option String := if ifindex = 2 then some "eth0" else none

/-- A collector that has just been started. -/
def NetEbpfMonitor.started : NetEbpfMonitor := ⟨fun _ => none, fun _ => none, true⟩

end MonitorSystem
