import Mathlib.Tactic.NormNum
import Mathlib.Tactic.Positivity
import MonitorSystem.Library.Keyed
import MonitorSystem.Manager.ConfigLoading
import MonitorSystem.Manager.MonitorInfo

/-!
# The utilisation of the disks

`DiskMonitor::updateOnce` (`worker/src/monitor/DiskMonitor.cpp`) reads the counters of the disks,
remembers them with the time, and publishes what each of them has gained since, per second. One
of the counters is the time in milliseconds during which a disk has been busy; what it has gained,
divided by ten times the seconds, is published as the percentage of the time in which the disk
was in use.

The seconds are those of `time()`, whole ones, while the counters go on in milliseconds. Two
samples that lie almost two seconds apart may be one second apart for `time()`, and a disk that
has been busy all the while is then published as being in use for almost twice the time
(`util_percent_over`). What is published is a percentage exactly where the disk has not been busy
for longer than the difference of the two times (`util_percent_iff`).
-/

namespace MonitorSystem

namespace DiskMonitor

/-! ### The clock -/

/-- An instant of the clock of the system, which counts nanoseconds since the epoch in 64 bits, one
of them for the sign. -/
structure Instant where
  nanoseconds : ℕ
  lt : nanoseconds < 2 ^ 63
  deriving DecidableEq

/-- `time`: the whole seconds. -/
def Instant.time (t : Instant) : ℕ := t.nanoseconds / 1000000000

/-- There are few enough of them for every product in this file to be a double. -/
theorem Instant.time_lt (t : Instant) : t.time < 2 ^ 34 := by
  have hlt := t.lt
  rw [Instant.time]
  omega

/-! ### The samples -/

/-- `DiskSample`: the counters of a disk. -/
structure DiskSample where
  reads : UInt64 := 0
  writes : UInt64 := 0
  sectorsRead : UInt64 := 0
  sectorsWritten : UInt64 := 0
  readTimeMs : UInt64 := 0
  writeTimeMs : UInt64 := 0
  ioInProgress : UInt64 := 0
  ioTimeMs : UInt64 := 0
  weightedIoTimeMs : UInt64 := 0
  deriving DecidableEq, Repr

/-- A line of `/proc/diskstats` that has been read. -/
structure Line where
  name : String
  curr : DiskSample
  deriving DecidableEq, Repr

/-- A disk that is skipped: a loop device or a part of the memory. -/
def isVirtual (name : String) : Bool :=
  "loop".toList.isPrefixOf name.toList || "ram".toList.isPrefixOf name.toList

/-- `counterDelta`: what a counter has gained, zero where it has gone down. -/
def counterDelta (current previous : UInt64) : ℚ :=
  if previous ≤ current then binary64 (current - previous).toNat else 0

/-- What is remembered under a name (`lastSamples` and `lastTime`). -/
structure Last where
  sample : Option DiskSample := none
  time : ℚ := 0

/-- The message of a line, with its counters. -/
def counters (line : Line) : DiskInfo where
  name := line.name
  reads := line.curr.reads
  writes := line.curr.writes
  sectorsRead := line.curr.sectorsRead
  sectorsWritten := line.curr.sectorsWritten
  readTimeMs := line.curr.readTimeMs
  writeTimeMs := line.curr.writeTimeMs
  ioInProgress := line.curr.ioInProgress
  ioTimeMs := line.curr.ioTimeMs
  weightedIoTimeMs := line.curr.weightedIoTimeMs

/-- The rates, of what the counters have gained in some seconds. -/
def setRates (disk : DiskInfo) (curr last : DiskSample) (dt : ℚ) : DiskInfo :=
  let readIos := counterDelta curr.reads last.reads
  let writeIos := counterDelta curr.writes last.writes
  let readBytes := binary64 (counterDelta curr.sectorsRead last.sectorsRead * 512)
  let writeBytes := binary64 (counterDelta curr.sectorsWritten last.sectorsWritten * 512)
  let readTime := counterDelta curr.readTimeMs last.readTimeMs
  let writeTime := counterDelta curr.writeTimeMs last.writeTimeMs
  let ioTime := counterDelta curr.ioTimeMs last.ioTimeMs
  { disk with
    readBytesPerSec := binary64 (readBytes / dt)
    writeBytesPerSec := binary64 (writeBytes / dt)
    readIops := binary64 (readIos / dt)
    writeIops := binary64 (writeIos / dt)
    avgReadLatencyMs := if 0 < readIos then binary64 (readTime / readIos) else 0
    avgWriteLatencyMs := if 0 < writeIos then binary64 (writeTime / writeIos) else 0
    utilPercent := binary64 (ioTime / binary64 (dt * 10)) }

/-- The message of a line. Without a sample before, or without time in between, all rates are
zero. -/
def publish (now : ℚ) (l : Last) (line : Line) : DiskInfo :=
  let dt := binary64 (now - l.time)
  match l.sample with
  | some last => if 0 < dt then setRates (counters line) line.curr last dt else counters line
  | none => counters line

/-- What is remembered of a line. -/
def remember (now : ℚ) (line : Line) : Last where
  sample := some line.curr
  time := now

/-- What there is to read in a call: the instant, and the lines of the file, of which some may not
be read. -/
structure Reading where
  instant : Instant
  lines : List (Option Line)

/-- `now`: the time of a call. -/
def Reading.now (r : Reading) : ℚ := binary64 r.instant.time

/-- The lines of the disks. -/
def Reading.disks (r : Reading) : List Line :=
  r.lines.reduceOption.filter fun line => !isVirtual line.name

/-- **`updateOnce`**, with what is remembered by name. -/
def updateOnce (last : String → Last) (r : Reading) : (String → Last) × List DiskInfo :=
  let out := Keyed.run Line.name (fun l line => (remember r.now line, publish r.now l line)) last
    r.disks
  (out.1, out.2.map (·.2))

/-- The messages of one call after another. -/
def updates (last : String → Last) : List Reading → List DiskInfo
  | [] => []
  | r :: rs => (updateOnce last r).2 ++ updates (updateOnce last r).1 rs

/-! ### One disk -/

/-- The samples of a disk, each with its instant. -/
def samples (rs : List Reading) (name : String) : List (Instant × Line) :=
  rs.flatMap fun r => (r.disks.filter fun line => line.name = name).map (r.instant, ·)

/-- The messages of a disk, from the start of the worker. -/
def published (rs : List Reading) (name : String) : List DiskInfo :=
  (updates (fun _ => {}) rs).filter fun disk => disk.name = name

theorem publish_name (now : ℚ) (l : Last) (line : Line) :
    (publish now l line).name = line.name := by
  simp only [publish]
  split
  · split <;> rfl
  · rfl

/-- **The messages of a disk are made of its samples alone**, each of them against the sample
before it. -/
theorem filter_updates (last : String → Last) (rs : List Reading) (name : String) :
    (updates last rs).filter (fun disk => disk.name = name) =
      Successive.run (fun s => remember (binary64 s.1.time) s.2)
        (fun s l => publish (binary64 s.1.time) l s.2) (last name) (samples rs name) := by
  induction rs generalizing last with
  | nil => rfl
  | cons r rs ih =>
    have hshows : ∀ (l : Last) (line : Line),
        (publish r.now l line).name = name ↔ line.name = name := by
      intro l line
      rw [publish_name]
    obtain ⟨hout, hstate⟩ := Keyed.run_successive
      (f := fun l line => (remember r.now line, publish r.now l line))
      (q := fun disk => disk.name = name) (fun _ _ => rfl) hshows last r.disks
    have hsamples : samples (r :: rs) name = _ := List.flatMap_cons
    rw [updates, List.filter_append, ih, hsamples, Successive.run_append, Successive.run_map,
      Successive.final_map]
    exact congrArg₂ (· ++ ·) hout (congrArg (Successive.run _ _ · _) hstate)

/-- What a message is computed against, once some samples of its disk have been read. -/
def lastOf (before : List (Instant × Line)) : Last :=
  before.getLast?.elim {} fun b => remember (binary64 b.1.time) b.2

theorem getElem?_published {rs : List Reading} {name : String} {k : ℕ} {s : Instant × Line}
    {disk : DiskInfo} (hs : (samples rs name)[k]? = some s)
    (hdisk : (published rs name)[k]? = some disk) :
    disk = publish (binary64 s.1.time) (lastOf ((samples rs name).take k)) s.2 := by
  rw [published, filter_updates, Successive.getElem?_run, hs, Successive.final_eq] at hdisk
  exact (Option.some.inj hdisk).symm

/-! ### The arithmetic of the percentage -/

/-- **A percentage above a hundred** is one of more milliseconds than the seconds have; the doubles
do not hide it. -/
theorem binary64_util_le_iff {n seconds : ℕ} (hpos : 0 < seconds) (hlt : seconds < 2 ^ 34) :
    binary64 (binary64 n / binary64 ((seconds : ℚ) * 10)) ≤ 100 ↔ n ≤ 1000 * seconds := by
  have hten : binary64 ((seconds : ℚ) * 10) = seconds * 10 := by
    exact_mod_cast binary64_natCast (n := seconds * 10) (by omega)
  have hposq : (1 : ℚ) ≤ seconds := by exact_mod_cast hpos
  have hltq : (seconds : ℚ) < 17179869184 := by exact_mod_cast hlt
  rw [hten]
  constructor
  · intro hle
    by_contra hgt
    have hn : 1000 * (seconds : ℚ) + 1 ≤ n := by exact_mod_cast not_le.mp hgt
    have hmillis := (binary64_mem (q := n) (by positivity)).1
    have hquot : 0 ≤ binary64 n / (seconds * 10) :=
      div_nonneg (binary64_nonneg (Nat.cast_nonneg n)) (by positivity)
    have hpercent := (binary64_mem hquot).1
    have hmul : binary64 n / (seconds * 10) * (seconds * 10) = binary64 n :=
      div_mul_cancel₀ _ (by positivity)
    have hbelow : (1 - 1 / 2 ^ 53) * binary64 n ≤ 100 * ((seconds : ℚ) * 10) := by
      calc (1 - 1 / 2 ^ 53 : ℚ) * binary64 n
          = (1 - 1 / 2 ^ 53) * (binary64 n / (seconds * 10)) * (seconds * 10) := by
            rw [mul_assoc, hmul]
        _ ≤ 100 * (seconds * 10) :=
            mul_le_mul_of_nonneg_right (hpercent.trans hle) (by positivity)
    norm_num at hmillis hbelow
    linarith only [hmillis, hbelow, hn, hltq]
  · intro hle
    have hexact : binary64 n = n := binary64_natCast (by omega)
    have hquot : |(n : ℚ) / (seconds * 10)| ≤ 100 := by
      have hle' : (n : ℚ) ≤ 1000 * seconds := by exact_mod_cast hle
      rw [abs_of_nonneg (by positivity), div_le_iff₀ (by positivity)]
      linarith only [hle']
    have hhundred : Digits.Holds 2 53 (100 : ℚ) := by
      exact_mod_cast holds_intCast (n := 100) (by decide)
    rw [hexact]
    exact (le_abs_self _).trans
      (hhundred.abs_round_le Digits.isNearest_halfEven (by decide) (by norm_num) hquot)

/-- The difference of two times. -/
theorem binary64_time_sub (t s : Instant) :
    binary64 (binary64 t.time - binary64 s.time) = (t.time : ℚ) - s.time := by
  have ht := t.time_lt
  have hs := s.time_lt
  have habs : |((t.time : ℤ) - s.time)| < 2 ^ 53 := by
    rw [abs_lt]
    omega
  rw [binary64_natCast (by omega), binary64_natCast (by omega)]
  exact_mod_cast binary64_intCast habs

/-! ### When it is a percentage -/

/-- A percentage. -/
def IsPercentage (q : ℚ) : Prop := 0 ≤ q ∧ q ≤ 100

/-- **A disk has been busy for no longer than the time has gone on** since the sample before, if
there is one and the time has gone on at all. -/
def Bounded (before : List (Instant × Line)) (s : Instant × Line) : Prop :=
  ∀ b ∈ before.getLast?, b.1.time < s.1.time →
    s.2.curr.ioTimeMs.toNat ≤ b.2.curr.ioTimeMs.toNat + 1000 * (s.1.time - b.1.time)

instance (before : List (Instant × Line)) (s : Instant × Line) : Decidable (Bounded before s) :=
  inferInstanceAs (Decidable (∀ b ∈ before.getLast?, _))

theorem counterDelta_of_le {current previous : UInt64} (h : previous ≤ current) :
    counterDelta current previous = binary64 ((current.toNat - previous.toNat : ℕ) : ℚ) := by
  rw [counterDelta, if_pos h, UInt64.toNat_sub_of_le _ _ h]

theorem counterDelta_of_lt {current previous : UInt64} (h : current < previous) :
    counterDelta current previous = 0 :=
  if_neg (UInt64.not_le.mpr h)

/-- The percentage against a sample at an earlier time. -/
theorem utilPercent_publish {b s : Instant × Line} (h : b.1.time < s.1.time) :
    (publish (binary64 s.1.time) (remember (binary64 b.1.time) b.2) s.2).utilPercent =
      binary64 (counterDelta s.2.curr.ioTimeMs b.2.curr.ioTimeMs /
        binary64 (((s.1.time - b.1.time : ℕ) : ℚ) * 10)) := by
  have hpos : (0 : ℚ) < s.1.time - b.1.time := sub_pos.mpr (by exact_mod_cast h)
  simp only [publish, remember, binary64_time_sub, if_pos hpos, setRates]
  rw [Nat.cast_sub h.le]

/-- Where the time has not gone on, nothing is divided. -/
theorem utilPercent_publish_of_le {b s : Instant × Line} (h : s.1.time ≤ b.1.time) :
    (publish (binary64 s.1.time) (remember (binary64 b.1.time) b.2) s.2).utilPercent = 0 := by
  have hpos : ¬(0 : ℚ) < s.1.time - b.1.time := by
    rw [not_lt]
    exact sub_nonpos.mpr (by exact_mod_cast h)
  simp only [publish, remember, binary64_time_sub, if_neg hpos, counters]

theorem isPercentage_zero : IsPercentage 0 := ⟨le_rfl, by norm_num⟩

/-- **One message**: its utilisation is a percentage if and only if the disk has not been busy for
longer than the time has gone on. -/
theorem isPercentage_publish_iff (before : List (Instant × Line)) (s : Instant × Line) :
    IsPercentage (publish (binary64 s.1.time) (lastOf before) s.2).utilPercent ↔
      Bounded before s := by
  rw [lastOf, Bounded]
  cases before.getLast? with
  | none => exact iff_of_true isPercentage_zero fun b hb => by cases hb
  | some b =>
    have hbounded : (∀ c ∈ some b, c.1.time < s.1.time → s.2.curr.ioTimeMs.toNat ≤
          c.2.curr.ioTimeMs.toNat + 1000 * (s.1.time - c.1.time)) ↔
        (b.1.time < s.1.time → s.2.curr.ioTimeMs.toNat ≤
          b.2.curr.ioTimeMs.toNat + 1000 * (s.1.time - b.1.time)) := by
      simp only [Option.mem_def, Option.some.injEq, forall_eq']
    rw [hbounded, Option.elim]
    rcases lt_or_ge b.1.time s.1.time with htime | htime
    · rw [utilPercent_publish htime]
      by_cases hcounter : s.2.curr.ioTimeMs < b.2.curr.ioTimeMs
      · -- the counter has gone down
        have hle := (UInt64.lt_iff_toNat_lt.mp hcounter).le
        rw [counterDelta_of_lt hcounter, zero_div, binary64,
          Digits.round_zero Digits.isNearest_halfEven]
        exact iff_of_true isPercentage_zero fun _ => hle.trans (Nat.le_add_right _ _)
      · have hseconds : s.1.time - b.1.time < 2 ^ 34 := by
          have hlt := s.1.time_lt
          omega
        have hnonneg : 0 ≤ binary64 (binary64
            ((s.2.curr.ioTimeMs.toNat - b.2.curr.ioTimeMs.toNat : ℕ) : ℚ) /
              binary64 (((s.1.time - b.1.time : ℕ) : ℚ) * 10)) :=
          binary64_nonneg (div_nonneg (binary64_nonneg (Nat.cast_nonneg _))
            (binary64_nonneg (by positivity)))
        rw [counterDelta_of_le (UInt64.not_lt.mp hcounter), IsPercentage, and_iff_right hnonneg,
          binary64_util_le_iff (by omega) hseconds]
        omega
    · rw [utilPercent_publish_of_le htime]
      exact iff_of_true isPercentage_zero fun hlt => absurd hlt (not_lt.mpr htime)

/-- **The utilisation of the disks**, in every run: a disk has one message for each of its samples,
and the utilisation in it is a percentage if and only if the disk has not been busy for longer than
the seconds of `time()` since the sample before. -/
theorem util_percent_iff (rs : List Reading) (name : String) :
    (published rs name).length = (samples rs name).length ∧
    ∀ (k : ℕ) (s : Instant × Line) (disk : DiskInfo), (samples rs name)[k]? = some s →
      (published rs name)[k]? = some disk →
      (IsPercentage disk.utilPercent ↔ Bounded ((samples rs name).take k) s) := by
  constructor
  · rw [published, filter_updates, Successive.length_run]
  · intro k s disk hs hdisk
    rw [getElem?_published hs hdisk]
    exact isPercentage_publish_iff _ _

/-- A disk whose busy time never grows by more than the time that has really passed. -/
def Steady (ss : List (Instant × Line)) : Prop :=
  ss.IsChain fun b s => s.2.curr.ioTimeMs.toNat * 1000000 + b.1.nanoseconds ≤
    b.2.curr.ioTimeMs.toNat * 1000000 + s.1.nanoseconds

instance (ss : List (Instant × Line)) : Decidable (Steady ss) :=
  inferInstanceAs (Decidable (List.IsChain _ _))

/-- What has passed in a second when it is looked at. -/
def Instant.phase (t : Instant) : ℕ := t.nanoseconds % 1000000000

/-- **The phases decide**: of a steady disk, a sample that is taken no later in its second than the
one before has a percentage. -/
theorem bounded_of_phase_le {ss : List (Instant × Line)} (h : Steady ss) {k : ℕ}
    {s : Instant × Line} (hs : ss[k]? = some s)
    (hphase : ∀ b ∈ (ss.take k).getLast?, s.1.phase ≤ b.1.phase) : Bounded (ss.take k) s := by
  intro b hb _
  cases k with
  | zero => cases hb
  | succ k =>
    obtain ⟨hlt, rfl⟩ := List.getElem?_eq_some_iff.mp hs
    have hlast : (ss.take (k + 1)).getLast? = some ss[k] := by
      rw [List.getLast?_take, if_neg k.succ_ne_zero, Nat.add_sub_cancel,
        List.getElem?_eq_getElem (by omega), Option.some_or]
    rw [hlast] at hb hphase
    have hbefore : ss[k] = b := Option.some.inj hb
    rw [← hbefore]
    have hgrowth := List.isChain_iff_getElem.mp h k hlt
    have hle := hphase ss[k] rfl
    simp only [Instant.phase, Instant.time] at hle ⊢
    omega

/-- A disk that is busy all the time, read at the beginning of a second and some milliseconds
later. -/
def busy (ms : ℕ) (h : 5000000000 + ms * 1000000 < 2 ^ 63) : List Reading :=
  [⟨⟨5000000000, by decide⟩, [some ⟨"sda", {}⟩]⟩,
    ⟨⟨5000000000 + ms * 1000000, h⟩, [some ⟨"sda", { ioTimeMs := .ofNat ms }⟩]⟩]

/-- After whole seconds it is in use for a hundred percent of the time, -/
theorem util_percent_iff_busy :
    ∃ disk ∈ published (busy 3000 (by decide)) "sda",
      IsPercentage disk.utilPercent ∧ disk.utilPercent = 100 := by
  have hsecond := (util_percent_iff (busy 3000 (by decide)) "sda").2 1
    (⟨8000000000, by decide⟩, ⟨"sda", { ioTimeMs := 3000 }⟩)
    (publish 8 ⟨some {}, 5⟩ ⟨"sda", { ioTimeMs := 3000 }⟩) (by decide +kernel) (by decide +kernel)
  exact ⟨_, by decide +kernel, hsecond.mpr (by decide +kernel), by decide +kernel⟩

/-- **and just before the next second for almost twice as much.** -/
theorem util_percent_over :
    Steady (samples (busy 1900 (by decide)) "sda") ∧
      (published (busy 1900 (by decide)) "sda").map (·.utilPercent) = [0, 190] ∧
      ¬IsPercentage 190 := by
  refine ⟨by decide +kernel, by decide +kernel, fun h => ?_⟩
  exact absurd h.2 (by norm_num)

end DiskMonitor

end MonitorSystem
