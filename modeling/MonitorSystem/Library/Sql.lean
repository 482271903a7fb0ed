import Mathlib.Data.List.Dedup
import Mathlib.Data.List.Perm.Basic
import Mathlib.Data.Rat.Defs

/-!
# Prepared statements over the rows of a database

The part of SQL that a monitoring service needs: a `SELECT` from one table with a
conjunction of conditions, as a count, a count of distinct values, a list of rows, a list
of averages by time bucket, or the latest row of each group by a join of the table with
itself. Placeholders stand in the statement in the order of its text, and a list of
parameters is bound to them by position.

What a server does beyond this is not fixed: `Dialect` holds the comparison of values that
are not both text, the arithmetic and the aggregates, with the one law that two texts are
equal for `=` exactly when they are the same. A statement does not determine its answer
either, since rows that `ORDER BY` does not separate may come in any order;
`Stmt.Answers` is the relation between the contents of the tables, the statement with its
parameters, and an answer.

* `Stmt.places` – the placeholders, each by the place in which it stands;
* `Stmt.sources` – the rows of the tables from which an answer is computed;
* `Stmt.answers_restrict` – an answer does not depend on the rows that the conditions
  exclude, provided that the join cannot bring them back.
-/

namespace Sql

/-! ### Values, rows and conditions -/

/-- The floating-point values that are not numbers of the real line. -/
inductive NonFinite where
  | posInf
  | negInf
  | nan
  deriving DecidableEq, Repr

/-- A value of a column, or of a bound parameter. -/
inductive Value where
  | null
  | int (n : ℤ)
  | num (q : ℚ)
  | nonFinite (x : NonFinite)
  | text (s : String)
  deriving DecidableEq, Repr, Inhabited

/-- A row: its columns by name. -/
abbrev Row := List (String × Value)

/-- The value of a column. -/
def Row.get (row : Row) (column : String) : Value := (row.lookup column).getD .null

/-- What a server brings to the meaning of a statement. -/
structure Dialect where
  /-- `=`, where it is true. -/
  eq : Value → Value → Bool
  /-- `<`, where it is true. -/
  lt : Value → Value → Bool
  abs : Value → Value
  /-- `FROM_UNIXTIME(FLOOR(UNIX_TIMESTAMP(t) / a) * b)`, of `a`, `b` and `t`. -/
  bucket : Value → Value → Value → Value
  avg : List Value → Value
  max : List Value → Value
  /-- How many rows a value bound to `LIMIT` or `OFFSET` stands for. -/
  rows : Value → ℕ
  /-- The text in which a value is fetched; `NULL` is fetched as nothing. -/
  fetch : Value → String
  eq_text : ∀ a b : String, eq (.text a) (.text b) = decide (a = b)
  rows_int : ∀ n : ℕ, rows (.int n) = n

/-- `<=`, where it is true. -/
def Dialect.le (d : Dialect) (a b : Value) : Bool := d.lt a b || d.eq a b

/-- The left-hand side of a comparison. -/
inductive Term where
  | column (name : String)
  | abs (name : String)
  deriving DecidableEq, Repr

/-- The operator of a comparison. -/
inductive Cmp where
  | eq
  | lt
  | gt
  deriving DecidableEq, Repr

/-- A condition. There is no negation, so `NULL` can be read as false. -/
inductive Cond where
  /-- A comparison with a placeholder. -/
  | param (op : Cmp) (lhs : Term)
  /-- A comparison with a number written in the statement. -/
  | const (op : Cmp) (lhs : Term) (n : ℤ)
  /-- `BETWEEN ? AND ?`. -/
  | between (lhs : Term)
  | and (a b : Cond)
  | or (a b : Cond)
  deriving DecidableEq, Repr

/-- Where in a statement a placeholder stands. -/
inductive Place where
  | compared (op : Cmp) (lhs : Term)
  | low (lhs : Term)
  | high (lhs : Term)
  /-- In the expression of the time bucket. -/
  | bucket
  | limit
  | offset
  deriving DecidableEq, Repr

/-- The placeholders of a condition, in the order of its text. -/
def Cond.places : Cond → List Place
  | .param op lhs => [.compared op lhs]
  | .const _ _ _ => []
  | .between lhs => [.low lhs, .high lhs]
  | .and a b | .or a b => a.places ++ b.places

section Places

variable (op : Cmp) (lhs : Term) (a b : Cond)

@[simp] theorem Cond.places_param : (Cond.param op lhs).places = [.compared op lhs] := rfl

@[simp] theorem Cond.places_const (value : ℤ) : (Cond.const op lhs value).places = [] := rfl

@[simp] theorem Cond.places_between :
    (Cond.between lhs).places = [.low lhs, .high lhs] := rfl

@[simp] theorem Cond.places_and : (Cond.and a b).places = a.places ++ b.places := rfl

@[simp] theorem Cond.places_or : (Cond.or a b).places = a.places ++ b.places := rfl

end Places

section Evaluation

variable (d : Dialect)

/-- The value of a left-hand side in a row. -/
def Term.eval (row : Row) : Term → Value
  | .column name => row.get name
  | .abs name => d.abs (row.get name)

/-- The truth of a comparison. -/
def Cmp.eval (a b : Value) : Cmp → Bool
  | .eq => d.eq a b
  | .lt => d.lt a b
  | .gt => d.lt b a

/-- The `i`-th of the bound parameters. -/
def nth (params : List Value) (i : ℕ) : Value := (params[i]?).getD .null

/-- The truth of a condition in a row. The condition reads as many of the parameters as it
has placeholders, from the first one on. -/
def Cond.eval (row : Row) : Cond → List Value → Bool
  | .param op lhs, params => op.eval d (lhs.eval d row) (nth params 0)
  | .const op lhs n, _ => op.eval d (lhs.eval d row) (.int n)
  | .between lhs, params =>
    d.le (nth params 0) (lhs.eval d row) && d.le (lhs.eval d row) (nth params 1)
  | .and a b, params => a.eval row params && b.eval row (params.drop a.places.length)
  | .or a b, params => a.eval row params || b.eval row (params.drop a.places.length)

/-- The truth of a conjunction. -/
def evalAll (row : Row) : List Cond → List Value → Bool
  | [], _ => true
  | c :: cs, params => c.eval d row params && evalAll row cs (params.drop c.places.length)

end Evaluation

/-! ### Statements -/

/-- The direction of `ORDER BY`. -/
inductive Direction where
  | asc
  | desc
  deriving DecidableEq, Repr

/-- What a statement does with the rows that meet its conditions. -/
inductive Shape where
  /-- `SELECT COUNT(*)`. -/
  | count
  /-- `SELECT COUNT(DISTINCT column)`. -/
  | countDistinct (column : String)
  /-- The columns of the rows, in an order, all of them or `LIMIT ? OFFSET ?`. -/
  | rows (columns : List String) (orderBy : String) (dir : Direction) (paged : Bool)
  /-- The averages of columns by the value of a column and a time bucket, which has two
  placeholders of its own; ordered by the bucket. -/
  | buckets (column time : String) (averages : List String)
  /-- The columns of the rows `p1` of the table that are joined with a group `p2`: the
  groups are made of the rows that meet the conditions, by the columns `key`, and joined on
  these columns and on the latest time of the group. -/
  | latest (columns key : List String) (time orderBy : String) (dir : Direction) (paged : Bool)
  deriving DecidableEq, Repr

/-- A statement on one of the tables `τ`. -/
structure Stmt (τ : Type*) where
  table : τ
  conds : List Cond
  shape : Shape
  deriving DecidableEq, Repr

namespace Shape

/-- The placeholders before the conditions. -/
def before : Shape → List Place
  | .buckets _ _ _ => [.bucket, .bucket]
  | _ => []

/-- The placeholders after the conditions. -/
def after : Shape → List Place
  | .rows _ _ _ true | .latest _ _ _ _ _ true => [.limit, .offset]
  | _ => []

section Placeholders

variable (columns key averages : List String) (column time orderBy : String) (dir : Direction)
  (paged : Bool)

@[simp] theorem before_count : count.before = [] := rfl

@[simp] theorem before_countDistinct : (countDistinct column).before = [] := rfl

@[simp] theorem before_rows : (rows columns orderBy dir paged).before = [] := rfl

@[simp] theorem before_buckets :
    (buckets column time averages).before = [.bucket, .bucket] := rfl

@[simp] theorem before_latest : (latest columns key time orderBy dir paged).before = [] := rfl

@[simp] theorem after_count : count.after = [] := rfl

@[simp] theorem after_countDistinct : (countDistinct column).after = [] := rfl

@[simp] theorem after_rows :
    (rows columns orderBy dir paged).after = if paged then [.limit, .offset] else [] := by
  cases paged <;> rfl

@[simp] theorem after_buckets : (buckets column time averages).after = [] := rfl

@[simp] theorem after_latest : (latest columns key time orderBy dir paged).after =
    if paged then [.limit, .offset] else [] := by
  cases paged <;> rfl

end Placeholders

end Shape

section Answers

variable {τ : Type*} (d : Dialect)

/-- The latest time of each group, with the values of its key. -/
def groups (key : List String) (time : String) (rows : List Row) : List (List Value × Value) :=
  (rows.map fun r => key.map r.get).dedup.map fun k =>
    (k, d.max ((rows.filter fun r => key.map r.get = k).map (·.get time)))

/-- The condition of the join. -/
def joins (key : List String) (time : String) (row : Row) (group : List Value × Value) : Bool :=
  ((key.map row.get).zip group.1).all (fun p => d.eq p.1 p.2) && d.eq (row.get time) group.2

/-- The rows of a table joined with the groups, each as often as it has a group. -/
def joined (key : List String) (time : String) (table : List Row)
    (gs : List (List Value × Value)) : List Row :=
  table.flatMap fun r => (gs.filter (joins d key time r)).map fun _ => r

/-- Whether one row may come before another. -/
def inOrder {α : Type*} (value : α → Value) (dir : Direction) (a b : α) : Prop :=
  match dir with
  | .asc => d.lt (value b) (value a) = false
  | .desc => d.lt (value a) (value b) = false

/-- A list of rows in the order asked for, and the page of it. -/
def Listed (rows : List Row) (columns : List String) (orderBy : String) (dir : Direction)
    (paged : Bool) (rest : List Value) (result : List (List String)) : Prop :=
  ∃ l : List Row, l.Perm rows ∧ l.Pairwise (inOrder d (·.get orderBy) dir) ∧
    result = ((if paged then (l.drop (d.rows (nth rest 1))).take (d.rows (nth rest 0)) else l).map
      fun r => columns.map fun c => d.fetch (r.get c))

/-- The groups of the time buckets. -/
def bucketGroups (column time : String) (a b : Value) (rows : List Row) :
    List ((Value × Value) × List Row) :=
  (rows.map fun r => (r.get column, d.bucket a b (r.get time))).dedup.map fun k =>
    (k, rows.filter fun r => (r.get column, d.bucket a b (r.get time)) = k)

namespace Stmt

/-- **The placeholders of a statement**, in the order of its text. -/
def places (s : Stmt τ) : List Place :=
  s.shape.before ++ s.conds.flatMap Cond.places ++ s.shape.after

/-- The parameters of the conditions, and those after them. -/
def condParams (s : Stmt τ) (params : List Value) : List Value :=
  params.drop s.shape.before.length

/-- The rows of the table that meet the conditions. -/
def matching (db : τ → List Row) (s : Stmt τ) (params : List Value) : List Row :=
  (db s.table).filter fun r => evalAll d r s.conds (s.condParams params)

/-- **The rows from which an answer is computed**: those that meet the conditions, and
those that the join reaches. -/
def sources (db : τ → List Row) (s : Stmt τ) (params : List Value) : List Row :=
  match s.shape with
  | .latest _ key time _ _ _ =>
    s.matching d db params ++
      joined d key time (db s.table) (groups d key time (s.matching d db params))
  | _ => s.matching d db params

/-- **The answers to a statement**, as rows of texts. -/
def Answers (db : τ → List Row) (s : Stmt τ) (params : List Value)
    (result : List (List String)) : Prop :=
  let rows := s.matching d db params
  let rest := (s.condParams params).drop (s.conds.flatMap Cond.places).length
  match s.shape with
  | .count => result = [[d.fetch (.int rows.length)]]
  | .countDistinct column =>
    result = [[d.fetch (.int ((rows.map (·.get column)).filter (· ≠ .null)).dedup.length)]]
  | .rows columns orderBy dir paged => Listed d rows columns orderBy dir paged rest result
  | .buckets column time averages =>
    ∃ l : List ((Value × Value) × List Row),
      l.Perm (bucketGroups d column time (nth params 0) (nth params 1) rows) ∧
      l.Pairwise (inOrder d (·.1.2) .asc) ∧
      result = l.map fun g =>
        d.fetch g.1.1 :: d.fetch g.1.2 ::
          averages.map fun c => d.fetch (d.avg (g.2.map (·.get c)))
  | .latest columns key time orderBy dir paged =>
    Listed d (joined d key time (db s.table) (groups d key time rows)) columns orderBy dir paged
      rest result

end Stmt

/-! ### What an answer depends on -/

variable {d}

/-- **A row that the join reaches agrees with a row that meets the conditions**, on the
columns of the key. -/
theorem exists_of_mem_joined {key : List String} {time : String} {table rows : List Row}
    {r : Row} (h : r ∈ joined d key time table (groups d key time rows)) :
    r ∈ table ∧ ∃ m ∈ rows, ∀ c ∈ key, d.eq (r.get c) (m.get c) = true := by
  obtain ⟨r', hr', hmap⟩ := List.mem_flatMap.mp h
  obtain ⟨g, hg, rfl⟩ := List.mem_map.mp hmap
  refine ⟨hr', ?_⟩
  obtain ⟨hgroup, hjoin⟩ := List.mem_filter.mp hg
  obtain ⟨k, hk, rfl⟩ := List.mem_map.mp hgroup
  obtain ⟨m, hm, rfl⟩ := List.mem_map.mp (List.mem_dedup.mp hk)
  refine ⟨m, hm, fun c hc => ?_⟩
  have hall := (Bool.and_eq_true_iff.mp hjoin).1
  rw [List.zip_map', List.all_map, List.all_eq_true] at hall
  exact hall c hc

/-- A join does not see the rows that it does not reach. -/
theorem joined_filter {key : List String} {time : String} {table rows : List Row}
    {keep : Row → Bool}
    (h : ∀ r ∈ joined d key time table (groups d key time rows), keep r = true) :
    joined d key time (table.filter keep) (groups d key time rows) =
      joined d key time table (groups d key time rows) := by
  unfold joined at h ⊢
  induction table with
  | nil => rfl
  | cons r table ih =>
    rw [List.flatMap_cons] at h ⊢
    have hrest := ih fun x hx => h x (List.mem_append_right _ hx)
    by_cases hk : keep r = true
    · rw [List.filter_cons_of_pos hk, List.flatMap_cons, hrest]
    · -- a row that is dropped has no group
      have hnone : (groups d key time rows).filter (joins d key time r) = [] := by
        rw [List.filter_eq_nil_iff]
        intro g hg hj
        exact hk (h r (List.mem_append_left _
          (List.mem_map.mpr ⟨g, List.mem_filter.mpr ⟨hg, hj⟩, rfl⟩)))
      rw [List.filter_cons_of_neg hk, hrest, hnone, List.map_nil, List.nil_append]

namespace Stmt

/-- An answer is computed from rows of the table. -/
theorem mem_table_of_mem_sources {db : τ → List Row} {s : Stmt τ} {params : List Value} {r : Row}
    (h : r ∈ s.sources d db params) : r ∈ db s.table := by
  unfold sources at h
  split at h
  · rcases List.mem_append.mp h with h | h
    · exact List.mem_of_mem_filter h
    · exact (exists_of_mem_joined h).1
  · exact List.mem_of_mem_filter h

/-- The database with only the rows that satisfy a predicate. -/
def restrict (keep : Row → Bool) (db : τ → List Row) : τ → List Row :=
  fun t => (db t).filter keep

theorem matching_restrict {db : τ → List Row} {s : Stmt τ} {params : List Value}
    {keep : Row → Bool} (h : ∀ r ∈ s.sources d db params, keep r = true) :
    s.matching d (restrict keep db) params = s.matching d db params := by
  unfold matching restrict
  rw [List.filter_filter]
  refine List.filter_congr fun r hr => ?_
  by_cases he : evalAll d r s.conds (s.condParams params) = true
  · have hm : r ∈ s.matching d db params := List.mem_filter.mpr ⟨hr, he⟩
    have hs : r ∈ s.sources d db params := by
      unfold sources
      split
      · exact List.mem_append_left _ hm
      · exact hm
    simp [he, h r hs]
  · simp [he]

/-- **The answers are determined by the rows they are computed from**: taking out any
other rows changes nothing. -/
theorem answers_restrict {db : τ → List Row} {s : Stmt τ} {params : List Value}
    {keep : Row → Bool} (h : ∀ r ∈ s.sources d db params, keep r = true)
    (result : List (List String)) :
    s.Answers d (restrict keep db) params result ↔ s.Answers d db params result := by
  unfold Answers
  rw [matching_restrict h]
  unfold sources at h
  split
  · exact Iff.rfl
  · exact Iff.rfl
  · exact Iff.rfl
  · exact Iff.rfl
  · next columns key time orderBy dir paged hshape =>
    rw [hshape] at h
    have hj := joined_filter fun r hr => h r (List.mem_append_right _ hr)
    simp only [restrict, hj]

end Stmt

end Answers

end Sql
