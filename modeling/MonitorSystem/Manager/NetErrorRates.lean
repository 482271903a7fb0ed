import Mathlib.Tactic.Linarith
import MonitorSystem.Manager.CounterRates

/-!
# The change rates of errors and drops

A row of `server_net_detail` has the errors and the dropped packets of an interface, and next to
each of these four counters how much it has changed, relatively, since the previous sample of the
interface (`HostManager::writeToMysql`, `manager/src/HostManager.cpp`). The other rates of the
row are computed from floating-point numbers, in which a difference may be negative; these four
are computed by `rateU64`, whose difference is one of unsigned integers of 64 bits. A counter
that has been reset is then stored with a rate near `2 ^ 64` divided by what it was
(`rateU64_exact`).

A rate is right, that is, the relative change, exactly where its counter has not gone down or was
zero (`errorRates_right_iff`).
-/

namespace MonitorSystem

open Sql MysqlWriter

/-- The interfaces. -/
def netSeries : DetailSeries NetInfo NetDetailedSample where
  table := .serverNetDetail
  column := "net_name"
  infos := (·.netInfo)
  key := (·.name)
  sample _ := netSample
  insert := netInsert
  last := (·.lastNetSamples)
  written p l data h := by
    have hscope := h.not_dropped
    exact ⟨filter_writeToMysql p l data hscope .serverNetDetail, by
      rw [writeToMysql, if_neg hscope]⟩
  named p data net prev := by
    simp only [netInsert, detailRow, insertInto, scopeColumns, scopeValues, List.cons_append,
      List.nil_append, List.zip_cons_cons]
    exact ⟨rfl, rfl⟩

/-! ### The four columns -/

/-- **A column with the relative change of a counter** of the interfaces. -/
structure ErrorRate where
  column : String
  counter : NetInfo → UInt64
  remembered : NetDetailedSample → UInt64
  remembers : ∀ net, remembered (netSample net) = counter net
  stored : ∀ (p : Platform) (data : HostMonitoringData) (net : NetInfo) (last : NetDetailedSample),
    (netInsert p data net last).row.get column =
      .num (p.print (rateU64 p (counter net) (remembered last)))

/-- The columns of `rateU64` in a row of an interface. -/
theorem get_netInsert (p : Platform) (data : HostMonitoringData) (net : NetInfo)
    (last : NetDetailedSample) :
    ["err_in_rate", "err_out_rate", "drop_in_rate", "drop_out_rate"].map
        (netInsert p data net last).row.get =
      [(net.errIn, last.errIn), (net.errOut, last.errOut), (net.dropIn, last.dropIn),
        (net.dropOut, last.dropOut)].map fun c => .num (p.print (rateU64 p c.1 c.2)) := by
  simp only [netInsert, netSample, detailRow, insertInto, scopeColumns, scopeValues, printed,
    List.cons_append, List.nil_append, List.map_cons, List.map_nil, List.zip_cons_cons]
  rfl

/-- `err_in_rate`. -/
def errInRate : ErrorRate where
  column := "err_in_rate"
  counter := (·.errIn)
  remembered := (·.errIn)
  remembers _ := rfl
  stored p data net last := (List.cons.inj (get_netInsert p data net last)).1

/-- `err_out_rate`. -/
def errOutRate : ErrorRate where
  column := "err_out_rate"
  counter := (·.errOut)
  remembered := (·.errOut)
  remembers _ := rfl
  stored p data net last := (List.cons.inj (List.cons.inj (get_netInsert p data net last)).2).1

/-- `drop_in_rate`. -/
def dropInRate : ErrorRate where
  column := "drop_in_rate"
  counter := (·.dropIn)
  remembered := (·.dropIn)
  remembers _ := rfl
  stored p data net last :=
    (List.cons.inj (List.cons.inj (List.cons.inj (get_netInsert p data net last)).2).2).1

/-- `drop_out_rate`. -/
def dropOutRate : ErrorRate where
  column := "drop_out_rate"
  counter := (·.dropOut)
  remembered := (·.dropOut)
  remembers _ := rfl
  stored p data net last :=
    (List.cons.inj (List.cons.inj (List.cons.inj
      (List.cons.inj (get_netInsert p data net last)).2).2).2).1

/-- The value that a counter is compared with, once some reports of its interface are written:
that of the last of them, and without one the value that is remembered from before. -/
def ErrorRate.before (c : ErrorRate) (last : NetDetailedSample)
    (reports : List (HostMonitoringData × NetInfo)) : UInt64 :=
  reports.getLast?.elim (c.remembered last) fun r => c.counter r.2

/-- **A stored rate is right** if it is the relative change of its counter, zero where the counter
was zero. -/
def ErrorRate.Right (last now : UInt64) (stored : Value) : Prop :=
  ∃ q : ℚ, stored = .num q ∧
    q = (if last = 0 then 0 else ((now.toNat : ℚ) - last.toNat) / last.toNat) ∧ -1 ≤ q

/-! ### When they are right -/

/-- The difference of two counters, the first of which has fallen below the second. -/
theorem toNat_sub_cast_of_lt {now last : UInt64} (h : now < last) :
    ((now - last).toNat : ℚ) = (now.toNat : ℚ) - last.toNat + 2 ^ 64 := by
  have hlt : now.toNat < last.toNat := UInt64.lt_iff_toNat_lt.mp h
  have hlast := last.toNat_lt
  have hsub : (now - last).toNat + last.toNat = now.toNat + 2 ^ 64 := by
    rw [UInt64.toNat_sub]
    omega
  have hcast : ((now - last).toNat : ℚ) + last.toNat = now.toNat + 2 ^ 64 := by
    exact_mod_cast hsub
  linarith only [hcast]

/-- **What `rateU64` makes of a counter**: the relative change, and where the counter has gone down
`2 ^ 64` too much in the difference. -/
theorem rateU64_exact {now last : UInt64} (hlast : last ≠ 0) :
    rateU64 .exact now last =
      ((now.toNat : ℚ) - last.toNat + if now < last then 2 ^ 64 else 0) / last.toNat := by
  have hrate : rateU64 .exact now last = ((now - last).toNat : ℚ) / last.toNat := if_neg hlast
  rw [hrate]
  split
  · next h => rw [toNat_sub_cast_of_lt h]
  · next h => rw [toNat_sub_cast h, add_zero]

/-- A relative change of a counter is at least `-1`. -/
theorem neg_one_le_change (now : UInt64) {last : UInt64} (hlast : last ≠ 0) :
    -1 ≤ ((now.toNat : ℚ) - last.toNat) / last.toNat := by
  have hpos : (0 : ℚ) < last.toNat := by
    have hne : last.toNat ≠ 0 := fun h => hlast (UInt64.toNat_inj.mp h)
    exact_mod_cast Nat.pos_of_ne_zero hne
  have hnow : (0 : ℚ) ≤ now.toNat := Nat.cast_nonneg _
  rw [le_div_iff₀ hpos]
  linarith only [hnow]

theorem ErrorRate.right_rateU64_iff (last now : UInt64) :
    ErrorRate.Right last now (.num (rateU64 .exact now last)) ↔ last = 0 ∨ last ≤ now := by
  by_cases hzero : last = 0
  · subst hzero
    have hrate : rateU64 .exact now 0 = 0 := if_pos rfl
    simp [ErrorRate.Right, hrate]
  · have hne : (last.toNat : ℚ) ≠ 0 :=
      fun h => hzero (UInt64.toNat_inj.mp (by exact_mod_cast h))
    constructor
    · rintro ⟨q, hq, hchange, -⟩
      obtain rfl := Value.num.inj hq
      refine .inr (UInt64.not_lt.mp fun h => ?_)
      rw [rateU64_exact hzero, if_pos h, if_neg hzero, div_left_inj' hne] at hchange
      linarith only [hchange]
    · rintro (h | h)
      · exact absurd h hzero
      · refine ⟨_, rfl, ?_, ?_⟩
        · rw [rateU64_exact hzero, if_neg (UInt64.not_lt.mpr h), if_neg hzero, add_zero]
        · rw [rateU64_exact hzero, if_neg (UInt64.not_lt.mpr h), add_zero]
          exact neg_one_le_change now hzero

/-- The row of a report, computed against the report before it. -/
theorem get_rows_netSeries {l : LastSamples} {records : List HostMonitoringData}
    {host name : String} (c : ErrorRate) {k : ℕ} {r : HostMonitoringData × NetInfo} {i : Insert}
    (hr : (netSeries.reports records host name)[k]? = some r)
    (hi : (netSeries.rows .exact l records host name)[k]? = some i) :
    i.row.get c.column = .num (rateU64 .exact (c.counter r.2)
      (c.before (l.lastNetSamples host name) ((netSeries.reports records host name).take k))) := by
  rw [netSeries.rows_eq, Successive.getElem?_run, hr] at hi
  obtain rfl := Option.some.inj hi
  rw [Successive.final_eq, ErrorRate.before]
  refine (c.stored .exact r.1 r.2 _).trans ?_
  cases ((netSeries.reports records host name).take k).getLast? with
  | none => rfl
  | some before => exact congrArg (fun n => Value.num (rateU64 .exact _ n)) (c.remembers before.2)

/-- **The change rates of errors and drops**, in every run: an interface of a host has one row for
each of its reports, and each of the four rates of a row is right if and only if the counter was
zero in the report before, or has not gone down since. -/
theorem errorRates_right_iff (l : LastSamples) (records : List HostMonitoringData)
    (host name : String) :
    (netSeries.rows .exact l records host name).length =
      (netSeries.reports records host name).length ∧
    ∀ (k : ℕ) (r : HostMonitoringData × NetInfo) (i : Insert),
      (netSeries.reports records host name)[k]? = some r →
      (netSeries.rows .exact l records host name)[k]? = some i →
      ∀ c ∈ [errInRate, errOutRate, dropInRate, dropOutRate],
        let last := c.before (l.lastNetSamples host name)
          ((netSeries.reports records host name).take k)
        ErrorRate.Right last (c.counter r.2) (i.row.get c.column) ↔
          last = 0 ∨ last ≤ c.counter r.2 := by
  constructor
  · rw [netSeries.rows_eq, Successive.length_run]
  · intro k r i hr hi c _ last
    rw [get_rows_netSeries c hr hi]
    exact ErrorRate.right_rateU64_iff last (c.counter r.2)

/-- An interface with some errors. -/
def faulty (errIn : UInt64) : NetInfo := { name := "eth0", errIn := errIn }

/-- The record of a web server with this interface alone. -/
def faultyRecord (errIn : UInt64) : HostMonitoringData :=
  monitoringData .exact { name := "web-01", netInfo := [faulty errIn] }
    ⟨"acme", "ops", "prod", 1⟩ 1000000000 default

/-- Two more errors after ten are stored as a change by a fifth. -/
theorem errorRates_right_iff_faultyRecord :
    ∃ i ∈ netSeries.rows .exact .init [faultyRecord 10, faultyRecord 12] "web-01" "eth0",
      ErrorRate.Right 10 12 (i.row.get "err_in_rate") ∧ i.row.get "err_in_rate" = .num (1 / 5) := by
  have hright := (errorRates_right_iff .init [faultyRecord 10, faultyRecord 12] "web-01" "eth0").2 1
    (faultyRecord 12, faulty 12) (netInsert .exact (faultyRecord 12) (faulty 12)
      (netSample (faulty 10))) (by decide +kernel) (by decide +kernel) errInRate List.mem_cons_self
  exact ⟨_, by decide +kernel, hright.mpr (.inr (by decide +kernel)), by decide +kernel⟩

/-- **A host that restarts**: an interface with ten errors comes back with three. What is stored is
no relative change, and far from `-1`. -/
theorem errorRates_not_right :
    (netSeries.rows .exact .init [faultyRecord 10, faultyRecord 3] "web-01" "eth0").map
        (·.row.get "err_in_rate") = [.num 0, .num ((2 ^ 64 - 7) / 10)] ∧
      ¬ ErrorRate.Right 10 3 (.num ((2 ^ 64 - 7) / 10)) := by
  have hrate : rateU64 .exact 3 10 = (2 ^ 64 - 7) / 10 := by decide +kernel
  refine ⟨by decide +kernel, ?_⟩
  rw [← hrate, ErrorRate.right_rateU64_iff]
  decide

end MonitorSystem
