import MonitorSystem.Library.SqlExact
import MonitorSystem.Manager.QueryManager

/-!
# Executions of the queries

What the query manager returns, given what the tables hold. The database is free in how it
arranges rows that `ORDER BY` does not separate, so that one request has many executions: an
`Execution` is what the database answers to the statements of a request, with the
arrangement of the rows behind each answer, and `Execution.rows` are the rows that it hands
out.

`Tables` are the contents that the schema (`sql table/init_server_performance.sql`) admits.
-/

namespace MonitorSystem

open Sql Oracle

/-! ### Tables and executions -/

/-- **The contents of the tables**, with what all of them declare: a name and a time that are
not null, and an `INT` that numbers the rows. -/
structure Tables extends Database where
  /-- `server_name VARCHAR(255) NOT NULL`. -/
  named : ∀ table, ∀ r ∈ rows table, ∃ s, r.get "server_name" = .text s
  /-- `timestamp DATETIME NOT NULL`. -/
  stamped : ∀ table, ∀ r ∈ rows table, ∃ s, r.get "timestamp" = .text s
  /-- `PRIMARY KEY`. -/
  keyed : ∀ table, ((rows table).map (·.get "id")).Nodup
  /-- `id INT AUTO_INCREMENT`. -/
  bounded : ∀ table, (rows table).length < 2 ^ 31

theorem Tables.nodup (db : Tables) (table : Table) : (db.rows table).Nodup :=
  List.Nodup.of_map _ (db.keyed table)

/-- The columns that are declared as texts, and not null, hold texts. -/
def Row.declared (r : Row) : Bool :=
  ["tenant_id", "team_id", "cluster_id", "server_name", "timestamp"].all fun c =>
    r.get c = .text (r.text c)

theorem Row.exists_text {r : Row} (h : Row.declared r = true) {c : String}
    (hc : c ∈ ["tenant_id", "team_id", "cluster_id", "server_name", "timestamp"]) :
    ∃ s, r.get c = .text s :=
  ⟨_, of_decide_eq_true (List.all_eq_true.mp h c hc)⟩

/-- Tables of which only one has rows. -/
def Tables.single (table : Table) (rows : List Row) (hrows : ∀ r ∈ rows, Row.declared r = true)
    (hkeyed : (rows.map (·.get "id")).Nodup) (hbounded : rows.length < 2 ^ 31) : Tables :=
  have declared : ∀ t, ∀ r ∈ (if t = table then rows else []), Row.declared r = true := by
    intro t r hr
    split at hr
    · exact hrows r hr
    · cases hr
  { rows := fun t => if t = table then rows else []
    typed := fun t r hr c hc => Row.exists_text (declared t r hr) (by
      simp only [List.mem_cons, List.not_mem_nil, or_false] at hc ⊢
      tauto)
    named := fun t r hr => Row.exists_text (declared t r hr) (by simp)
    stamped := fun t r hr => Row.exists_text (declared t r hr) (by simp)
    keyed := fun t => by
      split
      · exact hkeyed
      · exact List.nodup_nil
    bounded := fun t => by
      split
      · exact hbounded
      · exact Nat.two_pow_pos 31 }

namespace Prepared

variable (d : Dialect) (db : Table → List Row) (s : Prepared)

/-- The parameters after those of the conditions. -/
def rest : List Value := (s.stmt.condParams s.params).drop (s.stmt.conds.flatMap Cond.places).length

/-- The rows that a statement lists, before they are arranged. -/
def listed : List Row :=
  match s.stmt.shape with
  | .rows _ _ _ _ => s.stmt.matching d db s.params
  | .latest _ key time _ _ _ =>
    joined d key time (db s.stmt.table) (groups d key time (s.stmt.matching d db s.params))
  | _ => []

/-- The rows that are handed out of an arrangement. -/
def handsOut (l : List Row) : List Row :=
  match s.stmt.shape with
  | .rows _ _ _ paged | .latest _ _ _ _ _ paged => cut d paged s.rest l
  | _ => []

/-- **A reply to a statement**, with the arrangement of the rows behind it. A count has no
rows. -/
def Serves (l : List Row) (reply : Reply) : Prop :=
  match s.stmt.shape with
  | .rows columns orderBy dir _ | .latest columns _ _ orderBy dir _ =>
    Arranged d (s.listed d db) orderBy dir l ∧
      reply = .ok ((s.handsOut d l).map (Row.texts d columns))
  | _ => l = [] ∧ ∃ texts, reply = .ok texts ∧ s.stmt.Answers d db s.params texts

/-- **A reply is an answer, and every answer is a reply.** -/
theorem exists_serves_iff (texts : Rows) :
    (∃ l, s.Serves d db l (.ok texts)) ↔ s.stmt.Answers d db s.params texts := by
  unfold Serves Stmt.Answers
  cases hshape : s.stmt.shape with
  | rows columns orderBy dir paged =>
    simp only [listed_iff, listed, handsOut, hshape, Except.ok.injEq]
    rfl
  | latest columns key time orderBy dir paged =>
    simp only [listed_iff, listed, handsOut, hshape, Except.ok.injEq]
    rfl
  | count => simp
  | countDistinct column => simp
  | buckets column time averages => simp

end Prepared

/-- **An execution of a request**: what the database answers to its statements, and how it
arranges the rows. -/
structure Execution (d : Dialect) (db : Table → List Row) {α : Type} (q : Query α) where
  answer : Prepared → Reply
  order : Prepared → List Row
  served : ∀ s ∈ (q answer).1, s.Serves d db (order s) (answer s)

namespace Execution

variable {d : Dialect} {db : Table → List Row} {α : Type} {q : Query α} (e : Execution d db q)

/-- The rows that are handed out, statement by statement. -/
def rows : List Row := (q e.answer).1.flatMap fun s => s.handsOut d (e.order s)

/-- What the request ends with. -/
def result : Except String α := (q e.answer).2

/-- An execution fails at no statement. -/
theorem exists_ok {s : Prepared} (h : s ∈ (q e.answer).1) :
    ∃ texts, e.answer s = .ok texts ∧ s.Serves d db (e.order s) (.ok texts) := by
  have hs := e.served s h
  cases hreply : e.answer s with
  | ok texts => exact ⟨texts, rfl, hreply ▸ hs⟩
  | error f =>
    rw [hreply] at hs
    unfold Prepared.Serves at hs
    split at hs
    · exact absurd hs.2 (by simp)
    · exact absurd hs.2 (by simp)
    · obtain ⟨-, texts, htexts, -⟩ := hs
      cases htexts

end Execution

/-! ### What the conditions say -/

/-- The time of a row is in a range. -/
def InRange (d : Dialect) (startTime endTime : String) (r : Row) : Prop :=
  (d.le (.text startTime) (r.get "timestamp") && d.le (r.get "timestamp") (.text endTime)) = true

instance (d : Dialect) (startTime endTime : String) : DecidablePred (InRange d startTime endTime) :=
  fun _ => inferInstanceAs (Decidable (_ = true))

section Conditions

variable {d : Dialect} {scope : QueryScope} {r : Row}

theorem evalAll_scope (hr : ScopeTyped r) (params : List Value) :
    evalAll d r (scopePredicate scope) (appendScopeParams [] scope ++ params) =
      decide (InScope scope r) := by
  rw [← List.append_nil (scopePredicate scope), evalAll_scopePredicate hr, evalAll, Bool.and_true]

/-- The conditions of the queries about one server. -/
theorem evalAll_serverWhere {serverName startTime endTime : String} (hr : ScopeTyped r)
    (hname : ∃ s, r.get "server_name" = .text s) (params : List Value) :
    evalAll d r (serverWhere scope) (serverParams scope serverName startTime endTime ++ params) =
      decide (InScope scope r ∧ r.get "server_name" = .text serverName ∧
        InRange d startTime endTime r) := by
  rw [serverWhere, serverParams, List.append_assoc, evalAll_scopePredicate hr]
  simp [equals, evalAll, Cond.eval, Cmp.eval, Term.eval, nth, stringParam,
    eq_text_eq_decide hname, InRange, Bool.decide_and]

end Conditions

/-! ### Statements that are answered -/

theorem mem_log_executePreparedRows (s : Prepared) (answer : Prepared → Reply) :
    s ∈ (executePreparedRows s answer).1 :=
  mem_log_bind (List.mem_singleton_self s)

theorem executePreparedRows_apply {s : Prepared} {answer : Prepared → Reply} {texts : Rows}
    (h : answer s = .ok texts) : executePreparedRows s answer = ([s], .ok texts) := by
  have hask : (Session.ask s : Session Prepared Reply String Reply) answer =
      ([s], .ok (.ok texts)) := by
    rw [Session.ask, h]
  rw [executePreparedRows, bind_apply_ok hask]
  rfl

theorem digitsValue_eq (digits : List Char) :
    digitsValue digits = Nat.ofDigitChars 10 digits 0 := by
  have h : ∀ (digits : List Char) (n : ℕ),
      digits.foldl (fun (n : ℤ) c => 10 * n + (c.toNat - '0'.toNat : ℕ)) n =
        Nat.ofDigitChars 10 digits n := by
    intro digits
    induction digits with
    | nil => intro n; rfl
    | cons c digits ih =>
      intro n
      rw [List.foldl_cons, Nat.ofDigitChars_cons, ← ih]
      push_cast
      rfl
  exact h digits 0

/-- `atoi` of a count. -/
theorem atoi_toString (n : ℕ) : atoi (toString (n : ℤ)) = n := by
  have hlist : (toString (n : ℤ)).toList = Nat.toDigits 10 n := toList_toString_nat n
  have hdigit : ∀ c ∈ Nat.toDigits 10 n, c.isDigit = true := fun c hc =>
    Nat.isDigit_of_mem_toDigits (by decide) (by decide) hc
  -- a digit is neither a blank nor a sign
  obtain ⟨c, cs, hcs⟩ := List.exists_cons_of_ne_nil (Nat.toDigits_ne_nil (n := n) (b := 10))
  have hc := hdigit c (by simp [hcs])
  have hblank : c.isWhitespace = false := by
    by_contra hcon
    simp only [Char.isWhitespace, Bool.not_eq_false, Bool.or_eq_true, decide_eq_true_eq] at hcon
    rcases hcon with ((rfl | rfl) | rfl) | rfl <;> cases hc
  unfold atoi
  rw [hlist, hcs, List.dropWhile_cons_of_neg (by simp [hblank]), ← hcs]
  split
  · next rest h => cases hdigit '-' (by simp [h])
  · next rest h => cases hdigit '+' (by simp [h])
  · rw [List.takeWhile_eq_self_iff.mpr hdigit, digitsValue_eq, Nat.ofDigitChars_ten_toDigits]

/-- The number that a count is answered with. -/
theorem executePreparedCount_apply {d : ExactDialect} {s : Prepared} {answer : Prepared → Reply}
    {n : ℕ} (h : answer s = .ok [[d.fetch (.int n)]]) :
    executePreparedCount s answer = ([s], .ok (n : ℤ)) := by
  rw [executePreparedCount, bind_apply_ok (executePreparedRows_apply h), d.fetch_int]
  change ([s] ++ [], Except.ok (atoi (toString (n : ℤ)))) = _
  rw [atoi_toString, List.append_nil]

/-! ### A count and a page -/

/-- A count and a page, one after the other. -/
def countedPage (count page : Prepared) : Query Fetched := do
  let totalCount ← executePreparedCount count
  let rows ← executePreparedRows page
  pure (.page totalCount rows)

section CountedPage

variable {d : ExactDialect} {db : Table → List Row} {count page : Prepared} {n : ℕ}

/-- The count and the page, once they are answered. -/
theorem countedPage_apply {answer : Prepared → Reply} {texts : Rows}
    (hcount : answer count = .ok [[d.fetch (.int n)]]) (hpage : answer page = .ok texts) :
    countedPage count page answer = ([count, page], .ok (.page n texts)) := by
  rw [countedPage, bind_apply_ok (executePreparedCount_apply hcount),
    bind_apply_ok (executePreparedRows_apply hpage)]
  rfl

/-- **What an execution of a count and a page comes to.** The count is asked for, so it is
answered, and then the page is asked for. -/
theorem Execution.countedPage {q : Query Fetched} (e : Execution d.toDialect db q)
    (happly : q e.answer = countedPage count page e.answer)
    (hcount : ∀ l texts, count.Serves d.toDialect db l (.ok texts) →
      texts = [[d.fetch (.int n)]]) :
    ∃ texts, page.Serves d.toDialect db (e.order page) (.ok texts) ∧
      q e.answer = ([count, page], .ok (.page n texts)) := by
  obtain ⟨counted, hcounted, hserves⟩ := e.exists_ok (s := count) (by
    rw [happly]
    exact mem_log_bind (mem_log_bind (mem_log_executePreparedRows _ _)))
  obtain rfl := hcount _ counted hserves
  obtain ⟨texts, hpage, hlisted⟩ := e.exists_ok (s := page) (by
    rw [happly, MonitorSystem.countedPage, bind_apply_ok (executePreparedCount_apply hcounted)]
    exact List.mem_append_right _ (mem_log_bind (mem_log_executePreparedRows _ _)))
  exact ⟨texts, hlisted, happly.trans (countedPage_apply hcounted hpage)⟩

/-- A count and a page that are answered make an execution. -/
theorem exists_execution_countedPage {q : Query Fetched} {l : List Row} {texts : Rows}
    (happly : ∀ answer, q answer = MonitorSystem.countedPage count page answer)
    (hne : page ≠ count)
    (hcount : count.Serves d.toDialect db [] (.ok [[d.fetch (.int n)]]))
    (hpage : page.Serves d.toDialect db l (.ok texts)) :
    ∃ e : Execution d.toDialect db q, e.order page = l ∧ (q e.answer).1 = [count, page] := by
  obtain ⟨answer, hcounted, hlisted⟩ : ∃ answer : Prepared → Reply,
      answer count = .ok [[d.fetch (.int n)]] ∧ answer page = .ok texts :=
    ⟨fun s => if s = count then .ok [[d.fetch (.int n)]] else .ok texts, if_pos rfl, if_neg hne⟩
  obtain ⟨order, hnone, hall⟩ : ∃ order : Prepared → List Row, order count = [] ∧ order page = l :=
    ⟨fun s => if s = count then [] else l, if_pos rfl, if_neg hne⟩
  have hrun := (happly answer).trans (countedPage_apply hcounted hlisted)
  have hserved : ∀ s ∈ (q answer).1, s.Serves d.toDialect db (order s) (answer s) := by
    rw [hrun]
    intro s hs
    simp only [List.mem_cons, List.not_mem_nil, or_false] at hs
    rcases hs with rfl | rfl
    · rwa [hnone, hcounted]
    · rwa [hall, hlisted]
  exact ⟨⟨answer, order, hserved⟩, hall, congrArg Prod.fst hrun⟩

end CountedPage

theorem pageOffset_eq {p k : ℕ} (h : k * p < 2 ^ 31) : pageOffset (k + 1) p = (k * p : ℕ) := by
  have hprod : ((k : ℤ) + 1 - 1) * p = (k * p : ℕ) := by push_cast; simp
  rw [pageOffset, hprod, Int.bmod_eq_of_le]
  · omega
  · omega

/-- The parameters of a page. -/
def pageParams (page pageSize : ℤ) : List Value :=
  [.int (normalPageSize pageSize), .int (pageOffset (normalPage page) (normalPageSize pageSize))]

/-- A page that begins within the rows is the page of an arrangement. -/
theorem cut_pageParams (d : Dialect) {n p k : ℕ} (hn : n < 2 ^ 31) (hp : 0 < p) (hk : k * p < n)
    (l : List Row) : cut d true (pageParams (k + 1) p) l = Paging.page p k l := by
  have hsize : normalPageSize p = p := if_neg (by omega)
  have hpage : normalPage (k + 1 : ℤ) = k + 1 := if_neg (by omega)
  rw [pageParams, hsize, hpage, pageOffset_eq (by omega)]
  exact cut_page d rfl rfl l

/-! ### Pages of a table -/

namespace QueryManager

variable (m : QueryManager) (d : ExactDialect) (db : Tables) (table : Table)
  (columns : List String) (countContext context : String) (scope : QueryScope)
  (serverName : String) (range : TimeRange) (page pageSize : ℤ)

/-- A manager with a connection lets an admitted scope pass. -/
theorem begin_apply {m : QueryManager} {scope : QueryScope} (hlease : m.lease = .acquired)
    (hscope : scope.Admitted) (answer : Prepared → Reply) :
    m.begin scope answer = ([], .ok ()) := by
  unfold begin
  rw [hlease]
  have hvalid : validateQueryScope scope = .ok () :=
    if_neg (by rintro (h | h) <;> simp [QueryScope.Admitted, h] at hscope)
  rw [hvalid]
  rfl

theorem checkRange_apply {range : TimeRange} (hrange : validateTimeRange range = true)
    (answer : Prepared → Reply) : checkRange range answer = ([], .ok ()) := by
  rw [checkRange, if_pos hrange]
  rfl

/-- The statement of the count. -/
def countOf : Prepared :=
  countStmt table countContext scope serverName (formatTimePoint m.platform range.startTime)
    (formatTimePoint m.platform range.endTime)

/-- The statement of a page. -/
def pageOf : Prepared :=
  pageStmt table columns context scope serverName (formatTimePoint m.platform range.startTime)
    (formatTimePoint m.platform range.endTime) (normalPageSize pageSize)
    (pageOffset (normalPage page) (normalPageSize pageSize))

/-- **The rows that a query about one server asks for.** -/
def wanted (m : QueryManager) (d : Dialect) (db : Database) (table : Table) (scope : QueryScope)
    (serverName : String) (range : TimeRange) : List Row :=
  (db.rows table).filter fun r => InScope scope r ∧ r.get "server_name" = .text serverName ∧
    InRange d (formatTimePoint m.platform range.startTime)
      (formatTimePoint m.platform range.endTime) r

theorem matching_countOf :
    (m.countOf table countContext scope serverName range).stmt.matching d.toDialect db.rows
      (m.countOf table countContext scope serverName range).params =
        m.wanted d.toDialect db.toDatabase table scope serverName range := by
  refine List.filter_congr fun r hr => ?_
  exact (congrArg (evalAll d.toDialect r (serverWhere scope)) (List.append_nil _).symm).trans
    (evalAll_serverWhere (db.typed _ r hr) (db.named _ r hr) [])

theorem matching_pageOf :
    (m.pageOf table columns context scope serverName range page pageSize).stmt.matching d.toDialect
      db.rows (m.pageOf table columns context scope serverName range page pageSize).params =
        m.wanted d.toDialect db.toDatabase table scope serverName range :=
  List.filter_congr fun r hr => evalAll_serverWhere (db.typed _ r hr) (db.named _ r hr) _

theorem rest_pageOf :
    (m.pageOf table columns context scope serverName range page pageSize).rest =
      pageParams page pageSize := by
  by_cases h : scope.clusterId = "" <;>
    simp [Prepared.rest, pageOf, pageStmt, Stmt.condParams, serverWhere, serverParams,
      scopePredicate, appendScopeParams, equals, h, intParam, pageParams]

/-- The count is answered with the number of the rows that are asked for. -/
theorem texts_of_serves_countOf {l : List Row} {texts : Rows}
    (h : (m.countOf table countContext scope serverName range).Serves d.toDialect db.rows l
      (.ok texts)) :
    texts = [[d.fetch (.int
      (m.wanted d.toDialect db.toDatabase table scope serverName range).length)]] := by
  obtain ⟨-, texts', htexts, hanswer⟩ := h
  obtain rfl := Except.ok.inj htexts
  rw [← matching_countOf m d db table countContext]
  exact hanswer

/-- A page is served from an arrangement of the rows that are asked for. -/
theorem serves_pageOf_iff {l : List Row} {texts : Rows} :
    (m.pageOf table columns context scope serverName range page pageSize).Serves d.toDialect db.rows
        l (.ok texts) ↔
      Arranged d.toDialect (m.wanted d.toDialect db.toDatabase table scope serverName range)
          "timestamp" .desc l ∧
        texts = (cut d.toDialect true (pageParams page pageSize) l).map
          (Row.texts d.toDialect columns) := by
  rw [← matching_pageOf m d db table columns context scope serverName range page pageSize,
    ← rest_pageOf m table columns context scope serverName range page pageSize]
  exact and_congr_right fun _ => ⟨fun h => Except.ok.inj h, fun h => congrArg Except.ok h⟩

variable {m d db table columns countContext context scope serverName range page pageSize}

/-- After the first checks there are the count and the page. -/
theorem pagedRecords_apply (hlease : m.lease = .acquired) (hscope : scope.Admitted)
    (hrange : validateTimeRange range = true) (answer : Prepared → Reply) :
    m.pagedRecords table columns countContext context scope serverName range page pageSize answer =
      countedPage (m.countOf table countContext scope serverName range)
        (m.pageOf table columns context scope serverName range page pageSize) answer := by
  rw [pagedRecords, bind_apply_ok (begin_apply hlease hscope answer), List.nil_append,
    bind_apply_ok (checkRange_apply hrange answer), List.nil_append]
  rfl

/-- The rows that are handed out are those of the page. -/
theorem rows_pagedRecords
    (e : Execution d.toDialect db.rows (m.pagedRecords table columns countContext context scope
      serverName range page pageSize))
    (hlog : (m.pagedRecords table columns countContext context scope serverName range page pageSize
      e.answer).1 = [m.countOf table countContext scope serverName range,
        m.pageOf table columns context scope serverName range page pageSize]) :
    e.rows = cut d.toDialect true (pageParams page pageSize)
      (e.order (m.pageOf table columns context scope serverName range page pageSize)) := by
  rw [Execution.rows, hlog, ← rest_pageOf m table columns context scope serverName range]
  simp [Prepared.handsOut, countOf, countStmt, pageOf, pageStmt]

/-- **What an execution of a paged query comes to**: the number of all the rows that are asked
for, and the page of an arrangement of them. -/
theorem execution_pagedRecords (hlease : m.lease = .acquired) (hscope : scope.Admitted)
    (hrange : validateTimeRange range = true)
    (e : Execution d.toDialect db.rows (m.pagedRecords table columns countContext context scope
      serverName range page pageSize)) :
    ∃ l, Arranged d.toDialect (m.wanted d.toDialect db.toDatabase table scope serverName range)
        "timestamp" .desc l ∧
      e.rows = cut d.toDialect true (pageParams page pageSize) l ∧
      e.result = .ok (.page (m.wanted d.toDialect db.toDatabase table scope serverName range).length
        (e.rows.map (Row.texts d.toDialect columns))) := by
  obtain ⟨texts, hserves, hrun⟩ := e.countedPage (pagedRecords_apply hlease hscope hrange e.answer)
    fun l texts h => texts_of_serves_countOf m d db table countContext scope serverName range h
  obtain ⟨harranged, rfl⟩ := (serves_pageOf_iff m d db table columns context scope serverName range
    page pageSize).mp hserves
  have hrows := rows_pagedRecords e (congrArg Prod.fst hrun)
  refine ⟨_, harranged, hrows, ?_⟩
  rw [Execution.result, hrun, hrows]

/-- **Every arrangement has its execution.** -/
theorem exists_execution_pagedRecords (hlease : m.lease = .acquired) (hscope : scope.Admitted)
    (hrange : validateTimeRange range = true) {l : List Row}
    (hl : Arranged d.toDialect (m.wanted d.toDialect db.toDatabase table scope serverName range)
      "timestamp" .desc l) :
    ∃ e : Execution d.toDialect db.rows (m.pagedRecords table columns countContext context scope
        serverName range page pageSize),
      e.rows = cut d.toDialect true (pageParams page pageSize) l := by
  have hne : m.pageOf table columns context scope serverName range page pageSize ≠
      m.countOf table countContext scope serverName range := fun h => by
    have := congrArg (·.stmt.shape) h
    cases this
  have hcount : (m.countOf table countContext scope serverName range).Serves d.toDialect db.rows []
      (.ok [[d.fetch (.int
        (m.wanted d.toDialect db.toDatabase table scope serverName range).length)]]) := by
    rw [← matching_countOf m d db table countContext scope serverName range]
    exact ⟨rfl, _, rfl, rfl⟩
  obtain ⟨e, horder, hlog⟩ := exists_execution_countedPage
    (pagedRecords_apply hlease hscope hrange) hne hcount
    ((serves_pageOf_iff m d db table columns context scope serverName range page pageSize).mpr
      ⟨hl, rfl⟩)
  exact ⟨e, by rw [rows_pagedRecords e hlog, horder]⟩

end QueryManager

end MonitorSystem
