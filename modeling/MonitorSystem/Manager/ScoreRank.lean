import MonitorSystem.Manager.LatestScoreCache
import MonitorSystem.Manager.QueryPages
import MonitorSystem.Manager.QueryRecords

/-!
# The ranking of the servers by their score

`queryServerScoreRank` and `queryLatestServerScores` (`manager/src/QueryManager.cpp`) list the
latest row of each server: the table is joined with the latest time of each group of tenant,
team, cluster and name. A server that has two rows in its latest second is listed twice. The
total count of the ranking is the result of another statement, which counts names: a name
that occurs in two clusters is listed twice and counted once.

`Ranking` is what a list of the servers ought to be, and `ranking_iff` says when the two
queries deliver one.
-/

namespace MonitorSystem

open Sql Oracle

/-! ### Records and statistics -/

section Records

variable (d : ExactDialect) (clock : Clock) (p : Platform)

/-- The summary that is made of a row; a server that has not been heard of for more than sixty
seconds is offline. -/
def scoreSummary (row : List String) : ServerScoreSummary :=
  let lastUpdated := timeAt clock row 2
  { serverName := textAt row 0
    score := toFloat d row 1
    lastUpdated
    status := if (clock.now - lastUpdated).tdiv 1000000000 > 60 then .offline else .online
    cpuPercent := toFloat d row 3
    memUsedPercent := toFloat d row 4
    diskUtilPercent := toFloat d row 5
    loadAvg1 := toFloat d row 6 }

/-- `MAX_SCORE`: a hundred and the epsilon of a `float`, as a `float`. -/
def scoreLimit : ℚ := p.single (100 + 1 / 8388608)

/-- What the loop over the records has added up, with the greatest and the least score. -/
structure ScoreTotals where
  totalScore : ℚ
  maxScore : ℚ
  minScore : ℚ
  bestServer : String
  worstServer : String
  onlineCount : ℕ
  offlineCount : ℕ
  deriving DecidableEq, Repr

/-- One turn of the loop. -/
def ScoreTotals.add (t : ScoreTotals) (rec : ServerScoreSummary) : ScoreTotals where
  totalScore := p.single (t.totalScore + rec.score)
  maxScore := if t.maxScore < rec.score then rec.score else t.maxScore
  minScore := if rec.score < t.minScore then rec.score else t.minScore
  bestServer := if t.maxScore < rec.score then rec.serverName else t.bestServer
  worstServer := if rec.score < t.minScore then rec.serverName else t.worstServer
  onlineCount := if rec.status = .online then t.onlineCount + 1 else t.onlineCount
  offlineCount := if rec.status = .online then t.offlineCount else t.offlineCount + 1

/-- **The statistics that `queryLatestServerScores` fills in.** -/
def clusterStats (records : List ServerScoreSummary) : ClusterStats :=
  let t := records.foldl (ScoreTotals.add p) ⟨0, 0, scoreLimit p, "", "", 0, 0⟩
  { totalServers := records.length
    onlineServers := t.onlineCount
    offlineServers := t.offlineCount
    avgScore := if records = [] then 0 else p.single (t.totalScore / p.single records.length)
    maxScore := if 0 < t.maxScore then t.maxScore else 0
    minScore := if t.minScore < scoreLimit p then t.minScore else 0
    bestServer := t.bestServer
    worstServer := t.worstServer }

/-- What `queryLatestServerScores` makes of its rows. -/
def latestScores (texts : Rows) : LatestScores :=
  let records := texts.map (scoreSummary d clock)
  { records, stats := clusterStats p records }

end Records

/-! ### The latest rows of the servers -/

/-- The cluster and the name by which a server is known. -/
def serverKey (r : Row) : String × String := (r.text "cluster_id", r.text "server_name")

/-- The rows of a scope. -/
def Tables.inScope (db : Tables) (scope : QueryScope) : List Row :=
  (db.rows .serverPerformance).filter fun r => InScope scope r

/-- **A row of a server than which the server has none later.** -/
def IsLatest (d : Dialect) (db : Tables) (scope : QueryScope) (r : Row) : Prop :=
  r ∈ db.inScope scope ∧ ∀ x ∈ db.inScope scope, serverKey x = serverKey r →
    d.lt (r.get "timestamp") (x.get "timestamp") = false

instance (d : Dialect) (db : Tables) (scope : QueryScope) : DecidablePred (IsLatest d db scope) :=
  fun _ => inferInstanceAs (Decidable (_ ∧ ∀ x ∈ _, _ → _))

/-- The latest rows of all the servers. -/
def latestRows (d : Dialect) (db : Tables) (scope : QueryScope) : List Row :=
  (db.rows .serverPerformance).filter fun r => IsLatest d db scope r

/-- **What a list of the servers of a scope ought to be**: each of them once, with its latest
row, sorted by the score, and counted. -/
structure Ranking (d : Dialect) (db : Tables) (scope : QueryScope) (dir : Direction)
    (list : List Row) (total : ℤ) : Prop where
  once : (list.map serverKey).Nodup
  covers : ∀ k, k ∈ list.map serverKey ↔ k ∈ (db.inScope scope).map serverKey
  latest : ∀ r ∈ list, IsLatest d db scope r
  sorted : list.Pairwise (inOrder d (·.get "score") dir)
  counted : total = list.length

/-- **No server has two rows in its latest second.** -/
def UniqueLatest (d : Dialect) (db : Tables) (scope : QueryScope) : Prop :=
  ∀ r x, IsLatest d db scope r → IsLatest d db scope x → serverKey r = serverKey x → r = x

/-- **No name occurs in two clusters.** -/
def OneCluster (db : Tables) (scope : QueryScope) : Prop :=
  ∀ r ∈ db.inScope scope, ∀ x ∈ db.inScope scope,
    r.text "server_name" = x.text "server_name" → r.text "cluster_id" = x.text "cluster_id"

section Latest

variable {d : ExactDialect} {db : Tables} {scope : QueryScope}

/-- The columns of the key of the join hold texts. -/
theorem texts_scoreKeyColumns {r : Row} (hr : r ∈ db.rows .serverPerformance) :
    Texts scoreKeyColumns r := by
  intro c hc
  simp only [scoreKeyColumns, List.mem_cons, List.not_mem_nil, or_false] at hc
  rcases hc with rfl | rfl | rfl | rfl
  · exact db.typed _ r hr _ (by simp)
  · exact db.typed _ r hr _ (by simp)
  · exact db.typed _ r hr _ (by simp)
  · exact db.named _ r hr

/-- In a scope, the key of the join is the cluster and the name. -/
theorem key_eq_iff {r x : Row} (hr : r ∈ db.inScope scope) (hx : x ∈ db.inScope scope) :
    scoreKeyColumns.map x.get = scoreKeyColumns.map r.get ↔ serverKey x = serverKey r := by
  obtain ⟨hrt, hrs⟩ := List.mem_filter.mp hr
  obtain ⟨hxt, hxs⟩ := List.mem_filter.mp hx
  obtain ⟨htenant, hteam, -⟩ := of_decide_eq_true hrs
  obtain ⟨htenant', hteam', -⟩ := of_decide_eq_true hxs
  have hrc := Row.get_eq_text (db.typed _ r hrt "cluster_id" (by simp))
  have hxc := Row.get_eq_text (db.typed _ x hxt "cluster_id" (by simp))
  have hrn := Row.get_eq_text (db.named _ r hrt)
  have hxn := Row.get_eq_text (db.named _ x hxt)
  simp [scoreKeyColumns, serverKey, htenant, hteam, htenant', hteam', hrc, hxc, hrn, hxn]

/-- A row with the key of a row of the scope is one of the scope. -/
theorem mem_inScope_of_key {r x : Row} (hr : r ∈ db.rows .serverPerformance)
    (hx : x ∈ db.inScope scope) (h : scoreKeyColumns.map x.get = scoreKeyColumns.map r.get) :
    r ∈ db.inScope scope := by
  obtain ⟨-, hxs⟩ := List.mem_filter.mp hx
  obtain ⟨htenant, hteam, hcluster⟩ := of_decide_eq_true hxs
  simp only [scoreKeyColumns, List.map_cons, List.cons.injEq] at h
  obtain ⟨h1, h2, h3, -⟩ := h
  exact List.mem_filter.mpr ⟨hr, decide_eq_true ⟨h1 ▸ htenant, h2 ▸ hteam,
    fun hne => h3 ▸ hcluster hne⟩⟩

/-- **The join lists the latest rows, each once.** -/
theorem joined_eq_latestRows :
    joined d.toDialect scoreKeyColumns "timestamp" (db.rows .serverPerformance)
      (groups d.toDialect scoreKeyColumns "timestamp" (db.inScope scope)) =
        latestRows d.toDialect db scope := by
  have hsub : ∀ x ∈ db.inScope scope, x ∈ db.rows .serverPerformance :=
    fun x hx => List.mem_of_mem_filter hx
  rw [d.joined_eq_filter (fun r hr => texts_scoreKeyColumns hr) (fun r hr => db.stamped _ r hr) hsub
    (fun r hr x hx h => mem_inScope_of_key hr hx h)]
  refine List.filter_congr fun r _ => decide_eq_decide.mpr (and_congr_right fun hr => ?_)
  exact forall₂_congr fun x hx => by rw [key_eq_iff hr hx]

theorem mem_latestRows {r : Row} :
    r ∈ latestRows d.toDialect db scope ↔ IsLatest d.toDialect db scope r := by
  refine ⟨fun h => of_decide_eq_true (List.mem_filter.mp h).2, fun h => ?_⟩
  exact List.mem_filter.mpr ⟨List.mem_of_mem_filter h.1, decide_eq_true h⟩

/-- Every server has a latest row. -/
theorem exists_isLatest {r : Row} (hr : r ∈ db.inScope scope) :
    ∃ x, IsLatest d.toDialect db scope x ∧ serverKey x = serverKey r := by
  have htime : ∀ m ∈ db.inScope scope, ∃ s, m.get "timestamp" = .text s :=
    fun m hm => db.stamped _ m (List.mem_of_mem_filter hm)
  obtain ⟨x, hx, hkey, -, hle⟩ := d.exists_max scoreKeyColumns htime hr
  refine ⟨x, ⟨hx, fun y hy hyx => ?_⟩, (key_eq_iff hr hx).mp hkey⟩
  exact hle y hy (((key_eq_iff hx hy).mpr hyx).trans hkey)

/-! ### Counting servers -/

/-- The names that the total count counts. -/
theorem countDistinct_eq :
    (((db.inScope scope).map (·.get "server_name")).filter (· ≠ .null)).dedup.length =
      ((db.inScope scope).map (·.text "server_name")).dedup.length := by
  have htexts : (db.inScope scope).map (·.get "server_name") =
      ((db.inScope scope).map (·.text "server_name")).map .text := by
    rw [List.map_map]
    exact List.map_congr_left fun r hr =>
      Row.get_eq_text (db.named _ r (List.mem_of_mem_filter hr))
  rw [htexts, List.filter_eq_self.mpr fun v hv => ?_]
  · rw [List.dedup_map_of_injective fun a b h => Value.text.inj h, List.length_map]
  · obtain ⟨t, -, rfl⟩ := List.mem_map.mp hv
    simp

/-- **There are as many names as servers if and only if no name occurs in two clusters.** -/
theorem length_names_eq_iff :
    ((db.inScope scope).map (·.text "server_name")).dedup.length =
        ((db.inScope scope).map serverKey).dedup.length ↔ OneCluster db scope := by
  have hnames : (db.inScope scope).map (·.text "server_name") =
      ((db.inScope scope).map serverKey).map Prod.snd := by
    rw [List.map_map]
    rfl
  rw [hnames, length_dedup_map_iff]
  simp only [List.forall_mem_map, OneCluster]
  refine forall₂_congr fun r _ => forall₂_congr fun x _ => imp_congr_right fun hname => ?_
  exact ⟨congrArg Prod.fst, fun h => Prod.ext h hname⟩

/-- A list that holds every server once is as long as there are servers. -/
theorem length_eq_of_covers {list : List Row} (honce : (list.map serverKey).Nodup)
    (hcovers : ∀ k, k ∈ list.map serverKey ↔ k ∈ (db.inScope scope).map serverKey) :
    list.length = ((db.inScope scope).map serverKey).dedup.length := by
  have hperm : (list.map serverKey).Perm ((db.inScope scope).map serverKey).dedup :=
    (List.perm_ext_iff_of_nodup honce (List.nodup_dedup _)).mpr fun k => by
      rw [hcovers, List.mem_dedup]
  rw [← hperm.length_eq, List.length_map]

/-! ### When a listing is a ranking -/

variable {dir : Direction} {l : List Row}

theorem covers_of_arranged
    (hl : Arranged d.toDialect (latestRows d.toDialect db scope) "score" dir l)
    (k : String × String) : k ∈ l.map serverKey ↔ k ∈ (db.inScope scope).map serverKey := by
  constructor
  · intro hk
    obtain ⟨r, hr, rfl⟩ := List.mem_map.mp hk
    exact List.mem_map_of_mem (mem_latestRows.mp (hl.perm.mem_iff.mp hr)).1
  · intro hk
    obtain ⟨r, hr, rfl⟩ := List.mem_map.mp hk
    obtain ⟨x, hx, hkey⟩ := exists_isLatest (d := d) hr
    exact List.mem_map.mpr ⟨x, hl.perm.mem_iff.mpr (mem_latestRows.mpr hx), hkey⟩

/-- A listing holds every server once if and only if no server has two latest rows. -/
theorem once_iff_of_arranged
    (hl : Arranged d.toDialect (latestRows d.toDialect db scope) "score" dir l) :
    (l.map serverKey).Nodup ↔ UniqueLatest d.toDialect db scope := by
  have hnodup : l.Nodup := hl.perm.nodup_iff.mpr ((db.nodup .serverPerformance).filter _)
  rw [List.nodup_map_iff_inj_on hnodup]
  have hmem : ∀ r, r ∈ l ↔ IsLatest d.toDialect db scope r := fun r => by
    rw [hl.perm.mem_iff, mem_latestRows]
  simp only [hmem, UniqueLatest]
  exact ⟨fun h r x hr hx => h r hr x hx, fun h r hr x hx => h r x hr hx⟩

/-- **When a listing of the latest rows is a ranking**, with a total of its own. -/
theorem ranking_iff_of_arranged
    (hl : Arranged d.toDialect (latestRows d.toDialect db scope) "score" dir l) (total : ℤ) :
    Ranking d.toDialect db scope dir l total ↔
      UniqueLatest d.toDialect db scope ∧ total = l.length := by
  constructor
  · intro h
    exact ⟨(once_iff_of_arranged hl).mp h.once, h.counted⟩
  · rintro ⟨hunique, htotal⟩
    exact ⟨(once_iff_of_arranged hl).mpr hunique, covers_of_arranged hl,
      fun r hr => mem_latestRows.mp (hl.perm.mem_iff.mp hr), hl.sorted, htotal⟩

/-- With the number of names as its total. -/
theorem ranking_names_iff
    (hl : Arranged d.toDialect (latestRows d.toDialect db scope) "score" dir l) :
    Ranking d.toDialect db scope dir l
        ((db.inScope scope).map (·.text "server_name")).dedup.length ↔
      UniqueLatest d.toDialect db scope ∧ OneCluster db scope := by
  rw [ranking_iff_of_arranged hl]
  refine and_congr_right fun hunique => ?_
  rw [length_eq_of_covers ((once_iff_of_arranged hl).mpr hunique) (covers_of_arranged hl),
    ← length_names_eq_iff, Int.natCast_inj]

end Latest

/-! ### The two queries -/

namespace QueryManager

/-- The statement of a page of the ranking. -/
def rankOf (scope : QueryScope) (order : SortOrder) (page pageSize : ℤ) : Prepared :=
  scoreRankStmt scope order (normalPageSize pageSize)
    (pageOffset (normalPage page) (normalPageSize pageSize))

variable (d : ExactDialect) (db : Tables) (scope : QueryScope) (order : SortOrder)
  (page pageSize : ℤ)

theorem matching_scoreRankCountStmt :
    (scoreRankCountStmt scope).stmt.matching d.toDialect db.rows (scoreRankCountStmt scope).params =
      db.inScope scope := by
  refine List.filter_congr fun r hr => ?_
  exact (congrArg (evalAll d.toDialect r (scopePredicate scope)) (List.append_nil _).symm).trans
    (evalAll_scope (db.typed _ r hr) [])

theorem matching_rankOf :
    (rankOf scope order page pageSize).stmt.matching d.toDialect db.rows
      (rankOf scope order page pageSize).params = db.inScope scope :=
  List.filter_congr fun r hr => evalAll_scope (db.typed _ r hr) _

theorem matching_latestScoreStmt :
    (latestScoreStmt scope).stmt.matching d.toDialect db.rows (latestScoreStmt scope).params =
      db.inScope scope :=
  matching_scoreRankCountStmt d db scope

theorem rest_rankOf : (rankOf scope order page pageSize).rest = pageParams page pageSize := by
  by_cases h : scope.clusterId = "" <;>
    simp [Prepared.rest, rankOf, scoreRankStmt, Stmt.condParams, scopePredicate,
      appendScopeParams, equals, h, intParam, pageParams]

/-- The total count is the number of the names. -/
theorem serves_scoreRankCountStmt_iff {l : List Row} {texts : Rows} :
    (scoreRankCountStmt scope).Serves d.toDialect db.rows l (.ok texts) ↔
      l = [] ∧ texts = [[d.fetch (.int
        ((db.inScope scope).map (·.text "server_name")).dedup.length)]] := by
  rw [← countDistinct_eq, ← matching_scoreRankCountStmt d db scope]
  refine and_congr_right fun _ => ⟨?_, fun h => ⟨texts, rfl, h⟩⟩
  rintro ⟨texts', htexts, hanswer⟩
  obtain rfl := Except.ok.inj htexts
  exact hanswer

/-- A page is served from an arrangement of the latest rows. -/
theorem serves_rankOf_iff {l : List Row} {texts : Rows} :
    (rankOf scope order page pageSize).Serves d.toDialect db.rows l (.ok texts) ↔
      Arranged d.toDialect (latestRows d.toDialect db scope) "score" order.direction l ∧
        texts = (cut d.toDialect true (pageParams page pageSize) l).map
          (Row.texts d.toDialect scoreColumns) := by
  rw [← joined_eq_latestRows, ← matching_rankOf d db scope order page pageSize,
    ← rest_rankOf scope order page pageSize]
  exact and_congr_right fun _ => ⟨fun h => Except.ok.inj h, fun h => congrArg Except.ok h⟩

theorem serves_latestScoreStmt_iff {l : List Row} {texts : Rows} :
    (latestScoreStmt scope).Serves d.toDialect db.rows l (.ok texts) ↔
      Arranged d.toDialect (latestRows d.toDialect db scope) "score" .desc l ∧
        texts = l.map (Row.texts d.toDialect scoreColumns) := by
  rw [← joined_eq_latestRows, ← matching_latestScoreStmt d db scope]
  exact and_congr_right fun _ => ⟨fun h => Except.ok.inj h, fun h => congrArg Except.ok h⟩

variable {m : QueryManager} {d db scope order page pageSize}

theorem queryServerScoreRank_apply (hlease : m.lease = .acquired) (hscope : scope.Admitted)
    (answer : Prepared → Reply) :
    m.queryServerScoreRank scope order page pageSize answer =
      countedPage (scoreRankCountStmt scope) (rankOf scope order page pageSize) answer := by
  rw [queryServerScoreRank, bind_apply_ok (begin_apply hlease hscope answer), List.nil_append]
  rfl

/-- **What an execution of the ranking comes to**: the number of the names, and the page of an
arrangement of the latest rows. -/
theorem execution_queryServerScoreRank (hlease : m.lease = .acquired) (hscope : scope.Admitted)
    (e : Execution d.toDialect db.rows (m.queryServerScoreRank scope order page pageSize)) :
    Arranged d.toDialect (latestRows d.toDialect db scope) "score" order.direction
        (e.order (rankOf scope order page pageSize)) ∧
      e.rows = cut d.toDialect true (pageParams page pageSize)
        (e.order (rankOf scope order page pageSize)) ∧
      e.result = .ok (.page ((db.inScope scope).map (·.text "server_name")).dedup.length
        (e.rows.map (Row.texts d.toDialect scoreColumns))) := by
  obtain ⟨texts, hserves, hrun⟩ := e.countedPage (queryServerScoreRank_apply hlease hscope e.answer)
    fun l texts h => ((serves_scoreRankCountStmt_iff d db scope).mp h).2
  obtain ⟨harranged, rfl⟩ := (serves_rankOf_iff d db scope order page pageSize).mp hserves
  have hrows : e.rows = cut d.toDialect true (pageParams page pageSize)
      (e.order (rankOf scope order page pageSize)) := by
    rw [Execution.rows, hrun, ← rest_rankOf scope order page pageSize]
    simp [Prepared.handsOut, scoreRankCountStmt, rankOf, scoreRankStmt]
  refine ⟨harranged, hrows, ?_⟩
  rw [Execution.result, hrun, hrows]

theorem queryLatestServerScores_apply (hlease : m.lease = .acquired) (hscope : scope.Admitted)
    (answer : Prepared → Reply) :
    m.queryLatestServerScores scope answer =
      (executePreparedRows (latestScoreStmt scope) >>= fun rows => pure (.rows rows)) answer := by
  rw [queryLatestServerScores, bind_apply_ok (begin_apply hlease hscope answer), List.nil_append]

/-- **What an execution of the latest scores comes to**: an arrangement of the latest rows. -/
theorem execution_queryLatestServerScores (hlease : m.lease = .acquired)
    (hscope : scope.Admitted)
    (e : Execution d.toDialect db.rows (m.queryLatestServerScores scope)) :
    Arranged d.toDialect (latestRows d.toDialect db scope) "score" .desc e.rows ∧
      e.result = .ok (.rows (e.rows.map (Row.texts d.toDialect scoreColumns))) := by
  have happly := queryLatestServerScores_apply hlease hscope e.answer
  obtain ⟨texts, hanswer, hserves⟩ := e.exists_ok (s := latestScoreStmt scope) (by
    rw [happly]
    exact mem_log_bind (mem_log_executePreparedRows _ _))
  obtain ⟨harranged, rfl⟩ := (serves_latestScoreStmt_iff d db scope).mp hserves
  rw [bind_apply_ok (executePreparedRows_apply hanswer)] at happly
  have hrows : e.rows = e.order (latestScoreStmt scope) := by
    rw [Execution.rows, happly]
    exact List.flatMap_singleton _ _
  rw [hrows]
  refine ⟨harranged, ?_⟩
  rw [Execution.result, happly]
  rfl

/-- Every arrangement of the latest rows has its execution. -/
theorem exists_execution_queryServerScoreRank (hlease : m.lease = .acquired)
    (hscope : scope.Admitted) {l : List Row}
    (hl : Arranged d.toDialect (latestRows d.toDialect db scope) "score" order.direction l) :
    ∃ e : Execution d.toDialect db.rows (m.queryServerScoreRank scope order page pageSize),
      e.order (rankOf scope order page pageSize) = l := by
  have hne : rankOf scope order page pageSize ≠ scoreRankCountStmt scope := fun h => by
    have := congrArg (·.stmt.shape) h
    cases this
  obtain ⟨e, horder, -⟩ := exists_execution_countedPage (queryServerScoreRank_apply hlease hscope)
    hne ((serves_scoreRankCountStmt_iff d db scope).mpr ⟨rfl, rfl⟩)
    ((serves_rankOf_iff d db scope order page pageSize).mpr ⟨hl, rfl⟩)
  exact ⟨e, horder⟩

theorem exists_execution_queryLatestServerScores (hlease : m.lease = .acquired)
    (hscope : scope.Admitted) {l : List Row}
    (hl : Arranged d.toDialect (latestRows d.toDialect db scope) "score" .desc l) :
    ∃ e : Execution d.toDialect db.rows (m.queryLatestServerScores scope),
      e.order (latestScoreStmt scope) = l := by
  let answer (_ : Prepared) : Reply := .ok (l.map (Row.texts d.toDialect scoreColumns))
  have hserved : ∀ s ∈ (m.queryLatestServerScores scope answer).1,
      s.Serves d.toDialect db.rows l (answer s) := by
    rw [queryLatestServerScores_apply hlease hscope, bind_apply_ok (executePreparedRows_apply rfl)]
    intro s hs
    obtain rfl : s = latestScoreStmt scope := List.mem_singleton.mp hs
    exact (serves_latestScoreStmt_iff d db scope).mpr ⟨hl, rfl⟩
  exact ⟨⟨answer, fun _ => l, hserved⟩, rfl⟩

/-- **The pages of one arrangement, put together, are the arrangement.** -/
theorem flatMap_rows_eq (hlease : m.lease = .acquired) (hscope : scope.Admitted) {p : ℕ}
    (hp : 0 < p) {l : List Row}
    (e : ∀ k : ℕ, Execution d.toDialect db.rows (m.queryServerScoreRank scope order (k + 1) p))
    (hfixed : ∀ k : ℕ, (e k).order (rankOf scope order (k + 1) p) = l) :
    ((List.range (Paging.pages p l.length)).flatMap fun k => (e k).rows) = l := by
  obtain ⟨harranged, -, -⟩ := execution_queryServerScoreRank hlease hscope (e 0)
  have hbound : l.length < 2 ^ 31 := by
    rw [← hfixed 0, harranged.perm.length_eq]
    exact (List.length_filter_le _ _).trans_lt (db.bounded .serverPerformance)
  refine (List.flatMap_congr fun k hk => ?_).trans (Paging.flatMap_pages hp l)
  have hk' := (Paging.lt_pages_iff hp k _).mp (List.mem_range.mp hk)
  obtain ⟨-, hrows, -⟩ := execution_queryServerScoreRank hlease hscope (e k)
  rw [hrows, hfixed, cut_pageParams d.toDialect hbound hp hk']

end QueryManager

/-- **When the lists of the servers are rankings.** For all contents of the tables, every
scope, direction and page size: all the pages of `queryServerScoreRank` that are cut from
one arrangement of the ties, put together and with the total count, are a ranking of the
servers if and only if no server has two rows in its latest second and no name occurs in two
clusters of the scope; and what `queryLatestServerScores` returns, with its total number of
servers, is one if and only if no server has two rows in its latest second. -/
theorem rankings_iff (d : ExactDialect) (clock : Clock) (db : Tables) (m : QueryManager)
    (scope : QueryScope) (order : SortOrder) (p : ℕ) (hlease : m.lease = .acquired)
    (hscope : scope.Admitted) (hp : 0 < p) (l : List Row)
    (e : ∀ k : ℕ, Execution d.toDialect db.rows (m.queryServerScoreRank scope order (k + 1) p))
    (hfixed : ∀ k : ℕ, (e k).order (QueryManager.rankOf scope order (k + 1) p) = l)
    (e' : Execution d.toDialect db.rows (m.queryLatestServerScores scope)) :
    (∀ k : ℕ, (e k).result = .ok (.page (e 0).totalCount
      ((e k).rows.map (Row.texts d.toDialect scoreColumns)))) ∧
    (Ranking d.toDialect db scope order.direction
        ((List.range (Paging.pages p l.length)).flatMap fun k => (e k).rows) (e 0).totalCount ↔
      UniqueLatest d.toDialect db scope ∧ OneCluster db scope) ∧
    ∃ texts : Rows, e'.result = .ok (.rows texts) ∧
      texts = e'.rows.map (Row.texts d.toDialect scoreColumns) ∧
      (Ranking d.toDialect db scope .desc e'.rows
          (latestScores d clock m.platform texts).stats.totalServers ↔
        UniqueLatest d.toDialect db scope) := by
  have htotal : (e 0).totalCount =
      ((db.inScope scope).map (·.text "server_name")).dedup.length := by
    rw [Execution.totalCount, (QueryManager.execution_queryServerScoreRank hlease hscope (e 0)).2.2]
  refine ⟨fun k => ?_, ?_, ?_⟩
  · rw [htotal]
    exact (QueryManager.execution_queryServerScoreRank hlease hscope (e k)).2.2
  · rw [htotal, QueryManager.flatMap_rows_eq hlease hscope hp e hfixed]
    refine ranking_names_iff ?_
    rw [← hfixed 0]
    exact (QueryManager.execution_queryServerScoreRank hlease hscope (e 0)).1
  · obtain ⟨harranged, hresult⟩ := QueryManager.execution_queryLatestServerScores hlease hscope e'
    refine ⟨_, hresult, rfl, ?_⟩
    rw [ranking_iff_of_arranged harranged]
    simp [latestScores, clusterStats]

/-- A row of the server `web`, with its score. -/
def scoreRow (id : ℤ) (cluster : String) (score : ℚ) : Row :=
  [("id", .int id), ("tenant_id", .text "acme"), ("team_id", .text "ops"),
    ("cluster_id", .text cluster), ("server_name", .text "web"), ("score", .num score),
    ("timestamp", .text "2024-01-01 00:00:00")]

/-- A server that has been sampled twice in one second. -/
def twiceInOneSecond : Tables :=
  .single .serverPerformance [scoreRow 1 "prod" 90, scoreRow 2 "prod" 80] (by decide) (by decide)
    (by decide)

/-- **A server is listed twice, and counted once.** -/
theorem server_listed_twice :
    ∃ (l : List Row) (e : ∀ k : ℕ, Execution ExactDialect.reference.toDialect twiceInOneSecond.rows
        (PagedQuery.newYearManager.queryServerScoreRank ⟨"acme", "ops", ""⟩ .desc (k + 1) (1 : ℕ))),
      (∀ k : ℕ, (e k).order (QueryManager.rankOf ⟨"acme", "ops", ""⟩ .desc (k + 1) (1 : ℕ)) = l) ∧
      ((List.range (Paging.pages 1 l.length)).flatMap fun k => (e k).rows) =
        [scoreRow 1 "prod" 90, scoreRow 2 "prod" 80] ∧
      (e 0).totalCount = 1 ∧
      ¬ Ranking ExactDialect.reference.toDialect twiceInOneSecond ⟨"acme", "ops", ""⟩ .desc
        ((List.range (Paging.pages 1 l.length)).flatMap fun k => (e k).rows) (e 0).totalCount := by
  have hl : Arranged ExactDialect.reference.toDialect
      (latestRows ExactDialect.reference.toDialect twiceInOneSecond ⟨"acme", "ops", ""⟩) "score"
        .desc [scoreRow 1 "prod" 90, scoreRow 2 "prod" 80] := ⟨by decide, by decide⟩
  choose e he using fun k : ℕ => show ∃ e : Execution ExactDialect.reference.toDialect
      twiceInOneSecond.rows (PagedQuery.newYearManager.queryServerScoreRank ⟨"acme", "ops", ""⟩
        .desc (k + 1) (1 : ℕ)), _ from
    QueryManager.exists_execution_queryServerScoreRank rfl (by decide) hl
  have hcount : ((twiceInOneSecond.inScope ⟨"acme", "ops", ""⟩).map
      (·.text "server_name")).dedup.length = 1 := by decide
  have hrows := QueryManager.flatMap_rows_eq rfl (by decide) (by decide) e he
  refine ⟨_, e, he, hrows, ?_, fun h => ?_⟩
  · rw [Execution.totalCount,
      (QueryManager.execution_queryServerScoreRank rfl (by decide) (e 0)).2.2, hcount]
    rfl
  · have honce := h.once
    rw [hrows] at honce
    revert honce
    decide

/-- A server in each of two clusters. -/
def twoClusters : Tables :=
  .single .serverPerformance [scoreRow 1 "prod" 90, scoreRow 2 "test" 80] (by decide) (by decide)
    (by decide)

/-- In one of the two clusters there is one server, and it is ranked. -/
theorem rankings_iff_oneCluster :
    ∃ (l : List Row) (e : ∀ k : ℕ, Execution ExactDialect.reference.toDialect twoClusters.rows
        (PagedQuery.newYearManager.queryServerScoreRank ⟨"acme", "ops", "prod"⟩ .desc (k + 1)
          (1 : ℕ))) (e' : Execution ExactDialect.reference.toDialect twoClusters.rows
        (PagedQuery.newYearManager.queryLatestServerScores ⟨"acme", "ops", "prod"⟩)),
      Ranking ExactDialect.reference.toDialect twoClusters ⟨"acme", "ops", "prod"⟩ .desc
        ((List.range (Paging.pages 1 l.length)).flatMap fun k => (e k).rows) (e 0).totalCount ∧
      ∃ texts : Rows, e'.result = .ok (.rows texts) ∧
        Ranking ExactDialect.reference.toDialect twoClusters ⟨"acme", "ops", "prod"⟩ .desc e'.rows
          (latestScores ExactDialect.reference ⟨fun _ => 1704067200, 0⟩
            PagedQuery.newYearManager.platform texts).stats.totalServers := by
  have hl : Arranged ExactDialect.reference.toDialect
      (latestRows ExactDialect.reference.toDialect twoClusters ⟨"acme", "ops", "prod"⟩) "score"
        .desc [scoreRow 1 "prod" 90] := ⟨by decide, by decide⟩
  choose e he using fun k : ℕ => show ∃ e : Execution ExactDialect.reference.toDialect
      twoClusters.rows (PagedQuery.newYearManager.queryServerScoreRank ⟨"acme", "ops", "prod"⟩ .desc
        (k + 1) (1 : ℕ)), _ from
    QueryManager.exists_execution_queryServerScoreRank rfl (by decide) hl
  obtain ⟨e', -⟩ : ∃ e' : Execution ExactDialect.reference.toDialect twoClusters.rows
      (PagedQuery.newYearManager.queryLatestServerScores ⟨"acme", "ops", "prod"⟩), _ :=
    QueryManager.exists_execution_queryLatestServerScores rfl (by decide) hl
  have hmem : ∀ r, IsLatest ExactDialect.reference.toDialect twoClusters ⟨"acme", "ops", "prod"⟩ r →
      r = scoreRow 1 "prod" 90 := by
    intro r hr
    have := hl.perm.mem_iff.mpr (mem_latestRows.mpr hr)
    exact List.mem_singleton.mp this
  have hunique : UniqueLatest ExactDialect.reference.toDialect twoClusters
      ⟨"acme", "ops", "prod"⟩ := fun r x hr hx _ => (hmem r hr).trans (hmem x hx).symm
  have hcluster : OneCluster twoClusters ⟨"acme", "ops", "prod"⟩ := by
    unfold OneCluster
    decide
  obtain ⟨-, hrank, texts, hresult, -, hlatest⟩ := rankings_iff ExactDialect.reference
    ⟨fun _ => 1704067200, 0⟩ twoClusters PagedQuery.newYearManager ⟨"acme", "ops", "prod"⟩ .desc 1
    rfl (by decide) (by decide) _ e he e'
  exact ⟨_, e, e', hrank.mpr ⟨hunique, hcluster⟩, texts, hresult, hlatest.mpr hunique⟩

end MonitorSystem
