import MonitorSystem.Library.Sweeping
import MonitorSystem.Manager.PushHistory

/-!
# The table of scores

`HostManager` (`manager/src/HostManager.cpp`) keeps the score of each host that pushes. While
`onDataReceived` writes into the table, `processLoop` wakes up once a minute and takes out the
hosts that have been silent for more than 60 seconds; `getAllHostScores` copies the table, and
`getBestHost` goes through it in the order in which the hash table happens to be.

Both change the table under a lock, so a run is a sequence of pushes and passes. What is in the
table after any run can be read off its history (`scores_of_history`): a host is in it with its last
push, unless a pass since then has found this push too old. Nothing is assumed of the clock, which
can be set back.
-/

namespace MonitorSystem

/-- What happens to the table of scores: a push, or a pass of `processLoop` at some time. -/
inductive ScoreEvent where
  | push (r : Received)
  | pass (now : ℤ)
  deriving DecidableEq, Repr

/-- A push is too old at some time: its age in whole seconds, as `duration_cast` truncates it, is
above 60. -/
def HostScore.stale (s : HostScore) (now : ℤ) : Bool :=
  (now - s.timestamp).tdiv 1000000000 > 60

namespace HostManager

/-! ### The operations -/

/-- A pass of `processLoop`. -/
def processLoop (m : HostManager) (now : ℤ) : HostManager :=
  { m with hostScores := fun host => (m.hostScores host).filter fun s => !s.stale now }

/-- `getAllHostScores`. -/
def getAllHostScores (m : HostManager) : String → Option HostScore := m.hostScores

/-- The order in which the table is gone through: every host once. -/
structure Iterates (m : HostManager) (order : List String) : Prop where
  nodup : order.Nodup
  mem_iff : ∀ host, host ∈ order ↔ (m.hostScores host).isSome = true

/-- The better one of the host so far and another one. -/
def better (best : String × ℚ) (entry : String × ℚ) : String × ℚ :=
  if entry.2 > best.2 then entry else best

/-- **`getBestHost`**, for an order of the table. It starts from no host and `INT_MIN`. -/
def getBestHost (m : HostManager) (order : List String) : String :=
  ((order.filterMap fun host => (m.hostScores host).map fun s => (host, s.score)).foldl better
    ("", -2147483648)).1

/-- An event. -/
def scoreStep (p : Platform) (m : HostManager) : ScoreEvent → HostManager
  | .push r => (m.onDataReceived p r.info r.identity r.row r.now).1
  | .pass now => m.processLoop now

/-- The manager after some events. -/
def afterEvents (p : Platform) (es : List ScoreEvent) : HostManager :=
  es.foldl (scoreStep p) init

/-! ### The table as a swept map -/

/-- The score of a push. -/
def scoreOf (p : Platform) (r : Received) : HostScore :=
  ⟨r.info, calculateScore p r.info, r.now⟩

/-- What an event is to the table. A push that is not processed is nothing to it. -/
def tableEvent (p : Platform) : ScoreEvent → Option (Sweeping.Event String HostScore ℤ)
  | .push r => if r.processed then some (.put r.info.hostID (scoreOf p r)) else none
  | .pass now => some (.sweep now)

/-- **The table is a map that is swept.** -/
theorem hostScores_afterEvents (p : Platform) (es : List ScoreEvent) :
    (afterEvents p es).hostScores =
      Sweeping.after HostScore.stale (es.filterMap (tableEvent p)) := by
  have hfold : ∀ m : HostManager, ∀ es : List ScoreEvent,
      (es.foldl (scoreStep p) m).hostScores =
        (es.filterMap (tableEvent p)).foldl (Sweeping.step HostScore.stale) m.hostScores := by
    intro m es
    induction es generalizing m with
    | nil => rfl
    | cons e es ih =>
      rw [List.foldl_cons, ih]
      cases e with
      | push r =>
        cases hr : r.processed with
        | false =>
          have hsame := (onDataReceived_of_not_processed (p := p) (m := m) hr).2.hostScores
          rw [List.filterMap_cons_none (by simp [tableEvent, hr]), scoreStep, hsame]
        | true =>
          have hput : (scoreStep p m (.push r)).hostScores =
              Function.update m.hostScores r.info.hostID (some (scoreOf p r)) := by
            simp only [Received.processed, Bool.and_eq_true, decide_eq_true_eq] at hr
            obtain ⟨scope, hscope⟩ := Option.isSome_iff_exists.mp hr.1
            rw [scoreStep, onDataReceived_of_resolved hscope hr.2]
            rfl
          rw [List.filterMap_cons_some (b := .put r.info.hostID (scoreOf p r))
            (by simp [tableEvent, hr]), List.foldl_cons, hput]
          rfl
      | pass now => rfl
  exact hfold init es

/-- **A host stands in the table**: with its last push, which no pass since then has found too
old. -/
def Standing (p : Platform) (es : List ScoreEvent) (host : String) (s : HostScore) : Prop :=
  ∃ before r later, es = before ++ .push r :: later ∧
    r.processed = true ∧ r.info.hostID = host ∧ s = scoreOf p r ∧
    (∀ r', .push r' ∈ later → r'.processed = true → r'.info.hostID ≠ host) ∧
    ∀ now, .pass now ∈ later → (now - r.now).tdiv 1000000000 ≤ 60

/-- The history of the table and the history of the manager. -/
theorem current_iff_standing {p : Platform} {es : List ScoreEvent} {host : String}
    {s : HostScore} :
    Sweeping.Current HostScore.stale (es.filterMap (tableEvent p)) host s ↔
      Standing p es host s := by
  constructor
  · rintro ⟨before, later, heq, hput, hsweep⟩
    obtain ⟨before', rest, rfl, rfl, hrest⟩ := List.filterMap_eq_append_iff.mp heq
    obtain ⟨skipped, e, later', rfl, hskipped, he, rfl⟩ := List.filterMap_eq_cons_iff.mp hrest
    cases e with
    | pass now => cases he
    | push r =>
      simp only [tableEvent, Option.ite_none_right_eq_some, Option.some.injEq,
        Sweeping.Event.put.injEq] at he
      obtain ⟨hr, rfl, rfl⟩ := he
      refine ⟨before' ++ skipped, r, later', by simp, hr, rfl, rfl, fun r' hmem hr' hhost => ?_,
        fun now hmem => ?_⟩
      · refine hput (scoreOf p r') (List.mem_filterMap.mpr ⟨.push r', hmem, ?_⟩)
        rw [tableEvent, if_pos hr', hhost]
      · have hfresh := hsweep now (List.mem_filterMap.mpr ⟨.pass now, hmem, rfl⟩)
        exact not_lt.mp (of_decide_eq_false hfresh)
  · rintro ⟨before, r, later, rfl, hr, rfl, rfl, hput, hpass⟩
    refine ⟨before.filterMap (tableEvent p), later.filterMap (tableEvent p), ?_,
      fun s hmem => ?_, fun now hmem => ?_⟩
    · rw [List.filterMap_append, List.filterMap_cons_some
        (b := .put r.info.hostID (scoreOf p r)) (by simp [tableEvent, hr])]
    · obtain ⟨e, he, heq⟩ := List.mem_filterMap.mp hmem
      cases e with
      | pass now => cases heq
      | push r' =>
        simp only [tableEvent, Option.ite_none_right_eq_some, Option.some.injEq,
          Sweeping.Event.put.injEq] at heq
        exact hput r' he heq.1 heq.2.1
    · obtain ⟨e, he, heq⟩ := List.mem_filterMap.mp hmem
      cases e with
      | push r' => simp [tableEvent] at heq
      | pass now' =>
        obtain rfl : now' = now := by simpa [tableEvent] using heq
        exact decide_eq_false (not_lt.mpr (hpass now' he))

/-! ### The best host -/

/-- Going through some entries leaves one that none of them is better than. -/
theorem foldl_better (best : String × ℚ) (l : List (String × ℚ)) :
    (l.foldl better best = best ∨ l.foldl better best ∈ l) ∧
      best.2 ≤ (l.foldl better best).2 ∧ ∀ e ∈ l, e.2 ≤ (l.foldl better best).2 := by
  induction l generalizing best with
  | nil => exact ⟨Or.inl rfl, le_rfl, by rintro e ⟨⟩⟩
  | cons e l ih =>
    obtain ⟨hfrom, hle, hall⟩ := ih (better best e)
    have hbetter : best.2 ≤ (better best e).2 ∧ e.2 ≤ (better best e).2 := by
      unfold better
      split
      · next hgt => exact ⟨le_of_lt hgt, le_rfl⟩
      · next hle => exact ⟨le_rfl, not_lt.mp hle⟩
    refine ⟨?_, hbetter.1.trans hle, List.forall_mem_cons.mpr ⟨hbetter.2.trans hle, hall⟩⟩
    rcases hfrom with h | h
    · rw [List.foldl_cons, h]
      unfold better
      split
      · exact Or.inr List.mem_cons_self
      · exact Or.inl rfl
    · exact Or.inr (List.mem_cons_of_mem e h)

/-- A score is never negative. -/
theorem calculateScore_nonneg (p : Platform) (info : MonitorInfo) : 0 ≤ calculateScore p info := by
  have hclamped : ∀ x : ℚ, 0 ≤ if x < 0 then 0 else if 100 < x then 100 else x := by
    intro x
    split_ifs with hneg
    · exact le_refl (0 : ℚ)
    · decide
    · exact not_lt.mp hneg
  exact hclamped _

/-- **The best host**: there is none if the table is empty, and else it is a host of the table that
none has a better score than. -/
theorem getBestHost_spec {m : HostManager} {order : List String} (horder : m.Iterates order)
    (hnonneg : ∀ host s, m.hostScores host = some s → 0 ≤ s.score) :
    (m.getBestHost order = "" ∧ ∀ host, m.hostScores host = none) ∨
      ∃ s, m.hostScores (m.getBestHost order) = some s ∧
        ∀ host t, m.hostScores host = some t → t.score ≤ s.score := by
  have hentries : ∀ e : String × ℚ,
      e ∈ (order.filterMap fun host => (m.hostScores host).map fun s => (host, s.score)) ↔
        ∃ s, m.hostScores e.1 = some s ∧ s.score = e.2 := by
    rintro ⟨host, score⟩
    simp only [List.mem_filterMap, Option.map_eq_some_iff, Prod.mk.injEq]
    constructor
    · rintro ⟨host', -, s, hs, rfl, rfl⟩
      exact ⟨s, hs, rfl⟩
    · rintro ⟨s, hs, rfl⟩
      exact ⟨host, (horder.mem_iff host).mpr (by rw [hs]; rfl), s, hs, rfl, rfl⟩
  obtain ⟨hfrom, -, hall⟩ := foldl_better ("", -2147483648)
    (order.filterMap fun host => (m.hostScores host).map fun s => (host, s.score))
  unfold getBestHost
  rcases hfrom with hnone | hmem
  · -- nothing is better than `INT_MIN`, so there is nothing
    refine Or.inl ⟨by rw [hnone], fun host => ?_⟩
    by_contra hsome
    obtain ⟨s, hs⟩ := Option.ne_none_iff_exists'.mp hsome
    have hle := hall (host, s.score) ((hentries _).mpr ⟨s, hs, rfl⟩)
    rw [hnone] at hle
    exact absurd ((hnonneg host s hs).trans hle) (by decide)
  · obtain ⟨s, hs, hscore⟩ := (hentries _).mp hmem
    refine Or.inr ⟨s, hs, fun host t ht => ?_⟩
    rw [hscore]
    exact hall (host, t.score) ((hentries _).mpr ⟨t, ht, rfl⟩)

/-- **The table of scores is what its history says.** After every run of pushes and passes of
`processLoop`, at whatever times: a host is in the table exactly with the score of its last push
whose worker has a scope, if no pass since then has found this push more than 60 seconds old; and
in whatever order the table is gone through, `getBestHost` names a host of the table that none has
a better score than, or nothing if the table is empty. -/
theorem scores_of_history (p : Platform) (es : List ScoreEvent) {order : List String}
    (horder : (afterEvents p es).Iterates order) :
    (∀ host s, (afterEvents p es).getAllHostScores host = some s ↔ Standing p es host s) ∧
      (((afterEvents p es).getBestHost order = "" ∧ ∀ host s, ¬Standing p es host s) ∨
        ∃ s, Standing p es ((afterEvents p es).getBestHost order) s ∧
          ∀ host t, Standing p es host t → t.score ≤ s.score) := by
  have htable : ∀ host s, (afterEvents p es).hostScores host = some s ↔ Standing p es host s := by
    intro host s
    rw [hostScores_afterEvents, Sweeping.after_eq_some_iff, current_iff_standing]
  have hnonneg : ∀ host s, (afterEvents p es).hostScores host = some s → 0 ≤ s.score := by
    intro host s hs
    obtain ⟨-, r, -, -, -, -, rfl, -⟩ := (htable host s).mp hs
    exact calculateScore_nonneg p r.info
  refine ⟨htable, ?_⟩
  rcases getBestHost_spec horder hnonneg with ⟨hbest, hempty⟩ | ⟨s, hs, hall⟩
  · refine Or.inl ⟨hbest, fun host s hstanding => ?_⟩
    have hsome := (htable host s).mpr hstanding
    rw [hempty host] at hsome
    cases hsome
  · exact Or.inr ⟨s, (htable _ s).mp hs, fun host t ht => hall host t ((htable host t).mpr ht)⟩

/-- A push of a registered worker. -/
def registeredPush (host : String) (now : ℤ) : Received where
  info := { name := host }
  identity := ⟨"w1", ""⟩
  row := some ⟨some "acme", some "ops", some "c1", 1, none⟩
  now := now

/-- One host pushes and falls silent, another one pushes later. -/
def oneSilent : List ScoreEvent :=
  [.push (registeredPush "web-01" 0), .pass 30000000000,
    .push (registeredPush "db-01" 100000000000), .pass 120000000000]

theorem scores_of_history_oneSilent :
    (∀ host s, (afterEvents .exact oneSilent).getAllHostScores host = some s ↔
      Standing .exact oneSilent host s) ∧
    (((afterEvents .exact oneSilent).getBestHost ["db-01"] = "" ∧
        ∀ host s, ¬Standing .exact oneSilent host s) ∨
      ∃ s, Standing .exact oneSilent ((afterEvents .exact oneSilent).getBestHost ["db-01"]) s ∧
        ∀ host t, Standing .exact oneSilent host t → t.score ≤ s.score) := by
  refine scores_of_history .exact oneSilent ⟨by decide, fun host => ?_⟩
  have hevents : oneSilent.filterMap (tableEvent .exact) =
      [.put "web-01" (scoreOf .exact (registeredPush "web-01" 0)), .sweep 30000000000,
        .put "db-01" (scoreOf .exact (registeredPush "db-01" 100000000000)),
        .sweep 120000000000] := rfl
  rw [hostScores_afterEvents, hevents]
  rcases eq_or_ne host "db-01" with rfl | hdb
  · exact ⟨fun _ => rfl, fun _ => List.mem_cons_self⟩
  · rcases eq_or_ne host "web-01" with rfl | hweb
    · constructor
      · intro h
        exact absurd (List.mem_singleton.mp h) hdb
      · rintro ⟨⟩
    · simp [Sweeping.after, Sweeping.step, Function.update_of_ne hweb, hdb]

example : (afterEvents .exact oneSilent).getBestHost ["db-01"] = "db-01" := by decide +kernel

end HostManager

end MonitorSystem
