import MonitorSystem.Gateway.QueryHandler
import MonitorSystem.Manager.StoredRows

/-!
# Queries stay in their scope

From the HTTP query to the rows of the tables: whatever a query asks for, and whatever the
tables hold, the answer is computed from rows of the tenant and the team of the token – and
of the cluster, if one is asked for – and from no others.

Every statement that is executed for a query is one of its request
(`QueryGateway.asks_handle`), so that the results on single statements apply: its
parameters are in their places, its rows are in its scope (`Prepared.Scoped`). A query that
names another tenant or team, and a token without a tenant or a team, do not get as far as
a statement (`QueryGateway.refuses_handle`).

With the tables that the manager itself has filled, this closes the circle from the worker
to the user: a token sees nothing but records of its own tenant and team
(`seen_was_recorded`).
-/

namespace MonitorSystem

open Sql Oracle

namespace HttpQuery

/-- The scope that a query stands for, with the claims of its token. -/
def scope (req : HttpQuery) (claims : Claims) : QueryScope :=
  ⟨claims.tenantId, claims.teamId, trimSpace req.clusterId⟩

/-- The query names a tenant or a team that is not that of the token. -/
def NamesOther (req : HttpQuery) (claims : Claims) : Prop :=
  (trimSpace req.tenantId ≠ "" ∧ trimSpace req.tenantId ≠ claims.tenantId) ∨
    (trimSpace req.teamId ≠ "" ∧ trimSpace req.teamId ≠ claims.teamId)

instance (req : HttpQuery) (claims : Claims) : Decidable (req.NamesOther claims) :=
  inferInstanceAs (Decidable ((_ ∧ _) ∨ (_ ∧ _)))

end HttpQuery

theorem scopedContext_of_namesOther {req : HttpQuery} {claims : Claims}
    (hclaims : req.claims = some claims) (h : req.NamesOther claims) :
    ∃ e, scopedContext req = .error e := by
  unfold scopedContext
  rw [hclaims]
  dsimp only
  split
  · exact ⟨_, rfl⟩
  · next htenant =>
    rcases h with h | h
    · exact absurd h htenant
    · exact ⟨_, if_pos h⟩

theorem scopedContext_ok {req : HttpQuery} {claims : Claims} {scope : QueryScope}
    (hclaims : req.claims = some claims) (h : scopedContext req = .ok scope) :
    scope = req.scope claims := by
  unfold scopedContext at h
  rw [hclaims] at h
  dsimp only at h
  split at h
  · cases h
  · split at h
    · cases h
    · exact (Except.ok.inj h).symm

theorem setQueryScope_of_admitted {scope : QueryScope} (h : scope.Admitted) :
    setQueryScope scope = scope :=
  if_neg (by rintro (ht | ht) <;> simp [QueryScope.Admitted, ht] at h)

theorem setQueryScope_of_not_admitted {scope : QueryScope} (h : ¬ scope.Admitted) :
    setQueryScope scope = {} :=
  if_pos (by unfold QueryScope.Admitted at h; tauto)

theorem Rpc.scope_request (p : Platform) (rpc : Rpc) : (rpc.request p).scope = rpc.scope := by
  cases rpc <;> rfl

namespace QueryGateway

variable (g : QueryGateway)

theorem refuses_invokeJSON {rpc : Rpc} (h : Refuses (g.service.call rpc)) :
    Refuses (g.invokeJSON rpc) := by
  intro answer
  obtain ⟨hlog, e, he⟩ := h answer
  refine ⟨hlog, ?_⟩
  unfold invokeJSON
  cases g.transport with
  | some status => exact ⟨status, rfl⟩
  | none => exact ⟨e, he⟩

/-- **A query outside of its token is refused**: one that names another tenant or team, and
one whose token has no tenant or no team. No statement is executed. -/
theorem refuses_handle {req : HttpQuery} {claims : Claims} (hclaims : req.claims = some claims)
    (h : req.NamesOther claims ∨ claims.tenantId = "" ∨ claims.teamId = "") :
    Refuses (g.handle req) := by
  refine refuses_bind_of_asks (asks_lift _) fun op => ?_
  cases hs : scopedContext req with
  | error e => exact refuses_bind (refuses_lift_error e)
  | ok scope =>
    rw [bind_lift_ok]
    refine refuses_mapError (g.refuses_invokeJSON (g.service.refuses_call ?_))
    rw [op.scope_rpc]
    rcases h with h | h
    · obtain ⟨e, he⟩ := scopedContext_of_namesOther hclaims h
      rw [he] at hs
      cases hs
    · -- the scope of the message is left unset
      have hscope : ¬ scope.Admitted := by
        rw [scopedContext_ok hclaims hs]
        simp only [QueryScope.Admitted, HttpQuery.scope]
        tauto
      rw [setQueryScope_of_not_admitted hscope]
      decide

/-- **Every statement that is executed for a query is one of its request**, made for the
scope of its token. -/
theorem asks_handle {req : HttpQuery} {claims : Claims} (hclaims : req.claims = some claims) :
    Asks (fun p => ∃ op, req.operation = .ok op ∧
        p.Bound ((op.rpc (req.scope claims)).request g.service.manager.platform) ∧
        p.Scoped (req.scope claims))
      (g.handle req) := by
  by_cases hadm : (req.scope claims).Admitted
  · -- the scope of the message is the scope of the token, since it is admitted
    unfold handle
    cases hop : req.operation with
    | error e => exact asks_fail _
    | ok op =>
      rw [bind_lift_ok]
      cases hs : scopedContext req with
      | error e => exact asks_fail _
      | ok scope =>
        rw [bind_lift_ok]
        obtain rfl := scopedContext_ok hclaims hs
        intro answer p hp
        obtain ⟨hbound, hscoped⟩ := g.service.asks_call (op.rpc (req.scope claims)) answer p hp
        rw [Rpc.scope_request, op.scope_rpc, setQueryScope_of_admitted hadm] at hscoped
        exact ⟨op, rfl, hbound, hscoped⟩
  · intro answer p hp
    rw [(g.refuses_handle hclaims (.inr (by
      unfold QueryScope.Admitted at hadm
      simp only [HttpQuery.scope] at hadm
      tauto)) answer).1] at hp
    cases hp

end QueryGateway

/-- **Queries are isolated, from the token to the rows.** For every server, all contents of
the tables, every query whose token carries a tenant and a team, and all that the database
may answer: each statement that is executed for the query has the values of the request in
its placeholders, in number and in order; every row from which its answer is computed –
filtered, counted, averaged or joined – has the tenant and the team of the token, and the
cluster that is asked for, if one is; and the possible answers are those that the tables
give when they hold the rows of this scope alone. A query that names another tenant or
team, a token without a tenant or a team, and a call whose scope has no tenant or no team,
fail without a statement. -/
theorem query_isolated (d : Dialect) (db : Database) (g : QueryGateway) (req : HttpQuery)
    (claims : Claims) (hclaims : req.claims = some claims) :
    (∀ answer, ∀ p ∈ (g.handle req answer).1,
      (∃ op, req.operation = .ok op ∧
        p.Bound ((op.rpc (req.scope claims)).request g.service.manager.platform)) ∧
      (∀ r ∈ p.stmt.sources d db.rows p.params, InScope (req.scope claims) r) ∧
      ∀ result,
        p.stmt.Answers d (Stmt.restrict (fun r => decide (InScope (req.scope claims) r)) db.rows)
          p.params result ↔ p.stmt.Answers d db.rows p.params result) ∧
    (req.NamesOther claims ∨ claims.tenantId = "" ∨ claims.teamId = "" →
      Refuses (g.handle req)) ∧
    ∀ rpc : Rpc, ¬ rpc.scope.Admitted → Refuses (g.service.call rpc) := by
  refine ⟨fun answer p hp => ?_, g.refuses_handle hclaims, fun rpc h => g.service.refuses_call h⟩
  obtain ⟨op, hop, hbound, hscoped⟩ := g.asks_handle hclaims answer p hp
  exact ⟨⟨op, hop, hbound⟩, fun r hr => hscoped.inScope_of_sources hr, hscoped.answers_iff⟩

/-- **What a token sees was recorded for it**: in the tables that a sequence of writes has
left, every row from which a query is answered was written for a record of the tenant and
the team of the token, and of the cluster that is asked for. -/
theorem seen_was_recorded (d : Dialect) (p : Platform) (l : MysqlWriter.LastSamples)
    (records : List HostMonitoringData) (g : QueryGateway) {req : HttpQuery} {claims : Claims}
    (hclaims : req.claims = some claims) (answer : Prepared → Reply) {q : Prepared}
    (hq : q ∈ (g.handle req answer).1) {r : Row}
    (hr : r ∈ q.stmt.sources d (Database.ofWrites p l records).rows q.params) :
    ∃ data ∈ records, data.scope.tenantId = claims.tenantId ∧
      data.scope.teamId = claims.teamId ∧
      (trimSpace req.clusterId ≠ "" → data.scope.clusterId = trimSpace req.clusterId) := by
  obtain ⟨op, -, -, hscoped⟩ := g.asks_handle hclaims answer q hq
  exact Database.ofWrites_inScope (Stmt.mem_table_of_mem_sources hr)
    (hscoped.inScope_of_sources hr)

/-- A server whose times are texts in the order of their letters. -/
def textDialect : Dialect where
  eq a b := a = b
  lt a b :=
    match a, b with
    | .int m, .int n => m < n
    | .num q, .num r => q < r
    | .text s, .text t => s < t
    | _, _ => false
  abs
    | .num q => .num |q|
    | .int n => .int |n|
    | v => v
  bucket _ _ t := t
  avg vs := vs.headD .null
  max vs := vs.headD .null
  rows
    | .int n => n.toNat
    | _ => 0
  fetch
    | .text s => s
    | .int n => toString n
    | _ => ""
  eq_text a b := by simp
  rows_int n := by simp

/-- A sample of a server named `web`, in some scope. -/
def webRow (tenant team cluster : String) : Row :=
  [("tenant_id", .text tenant), ("team_id", .text team), ("cluster_id", .text cluster),
    ("server_name", .text "web"), ("timestamp", .text "2024-01-01 00:00:00"), ("score", .num 90)]

/-- Two tenants, each with a server of that name. -/
def twoTenants : Database where
  rows
    | .serverPerformance => [webRow "acme" "ops" "prod", webRow "rival" "ops" "prod"]
    | _ => []
  typed table r hr := by
    cases table <;> simp only [List.mem_cons, List.not_mem_nil, or_false] at hr
    intro c hc
    simp only [List.mem_cons, List.not_mem_nil, or_false] at hc
    rcases hr with rfl | rfl <;> rcases hc with rfl | rfl | rfl <;> exact ⟨_, rfl⟩

/-- A gateway whose manager is ready. -/
def readyGateway : QueryGateway where
  managerAddr := "localhost:50051"
  service := ⟨true, .exact, .acquired⟩
  transport := none

/-- The latest scores, for a token of the first tenant. -/
def latestQuery : HttpQuery where
  claims := some ⟨"acme", "ops"⟩
  clusterId := " prod "
  operation := .ok .latest

theorem query_isolated_latestQuery :
    latestScoreStmt ⟨"acme", "ops", "prod"⟩ ∈ (readyGateway.handle latestQuery fun _ => .ok []).1 ∧
    (latestScoreStmt ⟨"acme", "ops", "prod"⟩).stmt.sources textDialect twoTenants.rows
        (latestScoreStmt ⟨"acme", "ops", "prod"⟩).params =
      [webRow "acme" "ops" "prod", webRow "acme" "ops" "prod"] ∧
    ∀ r ∈ (latestScoreStmt ⟨"acme", "ops", "prod"⟩).stmt.sources textDialect twoTenants.rows
        (latestScoreStmt ⟨"acme", "ops", "prod"⟩).params, InScope ⟨"acme", "ops", "prod"⟩ r := by
  have hmem : latestScoreStmt ⟨"acme", "ops", "prod"⟩ ∈
      (readyGateway.handle latestQuery fun _ => .ok []).1 := by decide
  exact ⟨hmem, by decide, ((query_isolated textDialect twoTenants readyGateway latestQuery
    ⟨"acme", "ops"⟩ rfl).1 _ _ hmem).2.1⟩

end MonitorSystem
