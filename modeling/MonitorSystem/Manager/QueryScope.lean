import Mathlib.Data.List.Infix
import MonitorSystem.Manager.Basic

/-!
# The scope of a query

The tenant, team and cluster a query is made for, as the gateway writes it into the
request and the manager reads it back (`manager/src/rpc/QueryService.cpp`,
`manager/src/QueryManager.cpp`). A scope without a tenant or without a team is refused,
once by the service and once more by the query manager; the cluster may be left empty,
which means all the clusters of the team.
-/

namespace MonitorSystem

/-- `QueryScope`. The message of a request has the same three fields, each of them empty
when it is not set. -/
structure QueryScope where
  tenantId : String := ""
  teamId : String := ""
  clusterId : String := ""
  deriving DecidableEq, Repr, Inhabited

namespace QueryScope

/-- The scopes that are not refused. -/
def Admitted (scope : QueryScope) : Prop := scope.tenantId ≠ "" ∧ scope.teamId ≠ ""

instance (scope : QueryScope) : Decidable scope.Admitted :=
  inferInstanceAs (Decidable (scope.tenantId ≠ "" ∧ scope.teamId ≠ ""))

end QueryScope

/-- **`convertQueryScope`**: the scope of a request, or the status the call returns. -/
def convertQueryScope (requestScope : QueryScope) : Except Status QueryScope :=
  if requestScope.tenantId = "" ∨ requestScope.teamId = "" then
    .error ⟨.unauthenticated, "缺少查询租户或团队作用域"⟩
  else .ok requestScope

theorem convertQueryScope_of_admitted {scope : QueryScope} (h : scope.Admitted) :
    convertQueryScope scope = .ok scope :=
  if_neg (by rintro (ht | ht) <;> simp [QueryScope.Admitted, ht] at h)

theorem convertQueryScope_ok {requestScope scope : QueryScope}
    (h : convertQueryScope requestScope = .ok scope) : scope = requestScope ∧ scope.Admitted := by
  unfold convertQueryScope at h
  split at h
  · cases h
  · next hne =>
    cases h
    exact ⟨rfl, by simpa [QueryScope.Admitted] using hne⟩

theorem convertQueryScope_of_not_admitted {scope : QueryScope} (h : ¬ scope.Admitted) :
    convertQueryScope scope = .error ⟨.unauthenticated, "缺少查询租户或团队作用域"⟩ :=
  if_pos (by unfold QueryScope.Admitted at h; tauto)

/-- **`validateQueryScope`**: the check the query manager makes itself. -/
def validateQueryScope (scope : QueryScope) : Except String Unit :=
  if scope.tenantId = "" ∨ scope.teamId = "" then .error "Missing query tenant or team scope"
  else .ok ()

/-- `error.find(text) != npos`. -/
def contains (error text : String) : Bool := text.toList <:+: error.toList

/-- **`queryErrorStatus`**: the status for an error text of the query manager. -/
def queryErrorStatus (error : String) : Status :=
  if contains error "not initialized" ∨ contains error "MySQL support is not enabled" then
    ⟨.unavailable, error⟩
  else ⟨.internal, error⟩

end MonitorSystem
