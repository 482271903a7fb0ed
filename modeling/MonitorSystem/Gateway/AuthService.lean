import MonitorSystem.Library.Runs
import MonitorSystem.Text
import Mathlib.Data.List.Nodup

/-!
# The authentication service

`Login` and `SwitchTeam` of `api_gateway/internal/auth/service.go` over the tables of
`mysql_store.go`. Both look up the active memberships of an account and issue a token for
the one that is selected. `Login` reads the account from its table, `SwitchTeam` takes it
from the token that it is called with.

A token is therefore issued again and again for an account as it was at its login
(`tokens_honour_iff`): the account may have been disabled, or may have lost its role.

How a password is compared with a hash and how the database compares two texts are
arbitrary functions here.
-/

namespace MonitorSystem

/-! ### Accounts and memberships -/

/-- `Status`. -/
inductive AccountStatus where
  | active
  | disabled
  deriving DecidableEq, Repr

/-- `Role`: the two roles of an account, and any other text. -/
inductive AccountRole where
  | admin
  | user
  | other (name : String)
  deriving DecidableEq, Repr

/-- The role as it stands in a token. -/
def AccountRole.text : AccountRole → String
  | admin => "admin"
  | user => "user"
  | other name => name

/-- `MemberRole`. -/
inductive MemberRole where
  | owner
  | admin
  | member
  | viewer
  deriving DecidableEq, Repr

/-- `Tenant`. -/
structure Tenant where
  id : String
  name : String
  status : AccountStatus
  deriving DecidableEq, Repr

/-- `Team`. -/
structure Team where
  id : String
  tenantId : String
  name : String
  status : AccountStatus
  deriving DecidableEq, Repr

/-- `User`. -/
structure User where
  id : ℤ
  username : String
  passwordHash : String := ""
  role : AccountRole
  status : AccountStatus
  deriving DecidableEq, Repr

/-- `UserTeamMembership`. -/
structure UserTeamMembership where
  id : ℤ
  userId : ℤ
  tenantId : String
  teamId : String
  memberRole : MemberRole
  status : AccountStatus
  deriving DecidableEq, Repr

/-- `TeamMembership`: a membership with the names of its tenant and its team. -/
structure TeamMembership where
  tenantId : String
  tenantName : String
  teamId : String
  teamName : String
  memberRole : MemberRole
  status : AccountStatus
  deriving DecidableEq, Repr

/-- The claims of an access token. -/
structure TokenClaims where
  userId : ℤ
  username : String
  role : AccountRole
  tenantId : String
  teamId : String
  deriving DecidableEq, Repr

/-- **The tables of the accounts**, their rows by increasing id. There is one account to an
id. -/
structure AuthStore where
  users : List User
  tenants : List Tenant
  teams : List Team
  memberships : List UserTeamMembership
  users_nodup : (users.map (·.id)).Nodup

/-- `Service`: the secret of its tokens, whether a password belongs to a hash, and whether
two texts are equal for the database. -/
structure AuthService where
  secret : String
  compareHashAndPassword : String → String → Bool
  same : String → String → Bool

/-- The answers of the database during one call: whether the account can be read, and the
error of the other query, if there is one. -/
structure AuthReads where
  user : Bool := true
  memberships : Option String := none
  deriving DecidableEq, Repr

/-- `LoginResult`, with the claims of the token. -/
structure LoginResult where
  accessToken : TokenClaims
  user : User
  currentScope : TeamMembership
  teams : List TeamMembership
  deriving DecidableEq, Repr

/-! ### The queries -/

/-- `FindByUsername`. -/
def AuthStore.findByUsername (store : AuthStore) (same : String → String → Bool)
    (username : String) : Option User :=
  store.users.find? fun user => same user.username username

/-- `ListActiveMemberships`. -/
def AuthStore.listActiveMemberships (store : AuthStore) (same : String → String → Bool)
    (userId : ℤ) : List TeamMembership :=
  (store.memberships.filter fun m => m.userId = userId ∧ m.status = .active).flatMap fun m =>
    (store.tenants.filter fun tenant =>
      same tenant.id m.tenantId ∧ tenant.status = .active).flatMap fun tenant =>
        (store.teams.filter fun team =>
          same team.id m.teamId ∧ same team.tenantId m.tenantId ∧ team.status = .active).map
            fun team =>
              { tenantId := m.tenantId, tenantName := tenant.name, teamId := m.teamId
                teamName := team.name, memberRole := m.memberRole, status := m.status }

/-! ### The service -/

/-- `selectMembership`. -/
def selectMembership (memberships : List TeamMembership) (tenantId teamId : String) :
    Except String TeamMembership :=
  match memberships with
  | [] => .error "用户没有可用团队"
  | first :: rest =>
    if trimSpace tenantId = "" ∧ trimSpace teamId = "" then
      if rest = [] then .ok first else .error "请选择要访问的团队"
    else if trimSpace tenantId = "" ∨ trimSpace teamId = "" then .error "请选择要访问的团队"
    else
      match (first :: rest).find? fun m =>
        m.tenantId = trimSpace tenantId ∧ m.teamId = trimSpace teamId with
      | some m => .ok m
      | none => .error "权限不足"

/-- `sanitizeUser`. -/
def sanitizeUser (user : User) : User := { user with passwordHash := "" }

namespace AuthService

/-- `Generate`: the claims of the token that is signed. -/
def generate (service : AuthService) (user : User) (scope : TeamMembership) :
    Except String TokenClaims :=
  if service.secret = "" then .error "JWT_SECRET 不能为空"
  else if scope.tenantId = "" ∨ scope.teamId = "" then .error "请选择要访问的团队"
  else .ok
    { userId := user.id, username := user.username, role := user.role
      tenantId := scope.tenantId, teamId := scope.teamId }

/-- The part that `Login` and `SwitchTeam` share: the token of an account for the membership
that is selected. -/
def issueFor (service : AuthService) (store : AuthStore) (reads : AuthReads) (user : User)
    (tenantId teamId : String) : Except String LoginResult := do
  let memberships ←
    match reads.memberships with
    | some e => .error e
    | none => .ok (store.listActiveMemberships service.same user.id)
  let scope ← selectMembership memberships tenantId teamId
  let accessToken ← service.generate user scope
  .ok { accessToken, user := sanitizeUser user, currentScope := scope, teams := memberships }

/-- `Login`. -/
def login (service : AuthService) (store : AuthStore) (reads : AuthReads)
    (username password tenantId teamId : String) : Except String LoginResult :=
  if trimSpace username = "" ∨ password = "" then .error "用户名或密码错误"
  else
    match if reads.user then store.findByUsername service.same (trimSpace username) else none with
    | none => .error "用户名或密码错误"
    | some user =>
      if user.status ≠ .active then .error "用户已被禁用"
      else if service.compareHashAndPassword user.passwordHash password = false then
        .error "用户名或密码错误"
      else service.issueFor store reads user tenantId teamId

/-- `SwitchTeam`. -/
def switchTeam (service : AuthService) (store : AuthStore) (reads : AuthReads)
    (claims : TokenClaims) (tenantId teamId : String) : Except String LoginResult :=
  service.issueFor store reads
    { id := claims.userId, username := claims.username, role := claims.role, status := .active }
    tenantId teamId

end AuthService

/-! ### What a token says of the store -/

/-- The account of a token is active and has the role of the token. -/
def AuthStore.Stands (store : AuthStore) (claims : TokenClaims) : Prop :=
  ∃ user ∈ store.users, user.id = claims.userId ∧ user.status = .active ∧ user.role = claims.role

/-- **The store bears the token out**: its account is active and has its name and its role,
and its tenant and team are those of a membership of the account, all three of them
active. -/
structure AuthStore.Honours (store : AuthStore) (same : String → String → Bool)
    (claims : TokenClaims) : Prop where
  account : ∃ user ∈ store.users, user.id = claims.userId ∧ user.username = claims.username ∧
    user.status = .active ∧ user.role = claims.role
  membership : ∃ m ∈ store.memberships, m.userId = claims.userId ∧
    m.tenantId = claims.tenantId ∧ m.teamId = claims.teamId ∧ m.status = .active ∧
    (∃ tenant ∈ store.tenants, same tenant.id m.tenantId = true ∧ tenant.status = .active) ∧
    ∃ team ∈ store.teams, same team.id m.teamId = true ∧ same team.tenantId m.tenantId = true ∧
      team.status = .active

section Tokens

variable {service : AuthService} {store : AuthStore} {reads : AuthReads} {user : User}
  {tenantId teamId : String} {r : LoginResult}

theorem mem_of_selectMembership {memberships : List TeamMembership} {scope : TeamMembership}
    (h : selectMembership memberships tenantId teamId = .ok scope) : scope ∈ memberships := by
  unfold selectMembership at h
  split at h
  · cases h
  · split at h
    · split at h
      · obtain rfl := Except.ok.inj h
        exact List.mem_cons_self
      · cases h
    · split at h
      · cases h
      · split at h
        · next m hm =>
          obtain rfl := Except.ok.inj h
          exact List.mem_of_find?_eq_some hm
        · cases h

/-- **What is listed**: the memberships of the account that are active, with their tenants
and teams. -/
theorem mem_listActiveMemberships {same : String → String → Bool} {userId : ℤ}
    {scope : TeamMembership} (h : scope ∈ store.listActiveMemberships same userId) :
    ∃ m ∈ store.memberships, m.userId = userId ∧ m.tenantId = scope.tenantId ∧
      m.teamId = scope.teamId ∧ m.status = .active ∧
      (∃ tenant ∈ store.tenants, same tenant.id m.tenantId = true ∧ tenant.status = .active) ∧
      ∃ team ∈ store.teams, same team.id m.teamId = true ∧ same team.tenantId m.tenantId = true ∧
        team.status = .active := by
  unfold AuthStore.listActiveMemberships at h
  simp only [List.mem_flatMap, List.mem_map, List.mem_filter, decide_eq_true_eq] at h
  obtain ⟨m, ⟨hm, huser, hactive⟩, tenant, ⟨htenant, htenantId, htenantActive⟩, team,
    ⟨hteam, hteamId, hteamTenant, hteamActive⟩, rfl⟩ := h
  exact ⟨m, hm, huser, rfl, rfl, hactive, ⟨tenant, htenant, htenantId, htenantActive⟩,
    team, hteam, hteamId, hteamTenant, hteamActive⟩

/-- **The conditions for a token**: there is a secret, the query succeeds, and a membership
with a tenant and a team is selected. -/
def AuthService.CanIssue (service : AuthService) (store : AuthStore) (reads : AuthReads)
    (userId : ℤ) (tenantId teamId : String) : Prop :=
  service.secret ≠ "" ∧ reads.memberships = none ∧
    ∃ scope, selectMembership (store.listActiveMemberships service.same userId) tenantId teamId =
      .ok scope ∧ scope.tenantId ≠ "" ∧ scope.teamId ≠ ""

/-- **The token that is issued** is one of the account, for one of its active memberships. -/
theorem issueFor_ok (h : service.issueFor store reads user tenantId teamId = .ok r) :
    service.CanIssue store reads user.id tenantId teamId ∧ r.accessToken.userId = user.id ∧
      r.accessToken.username = user.username ∧ r.accessToken.role = user.role ∧
      ∃ scope ∈ store.listActiveMemberships service.same user.id,
        r.accessToken.tenantId = scope.tenantId ∧ r.accessToken.teamId = scope.teamId := by
  unfold AuthService.issueFor at h
  cases hreads : reads.memberships with
  | some e =>
    rw [hreads] at h
    cases h
  | none =>
    rw [hreads] at h
    cases hscope : selectMembership (store.listActiveMemberships service.same user.id)
        tenantId teamId with
    | error e =>
      simp only [bind, Except.bind, hscope] at h
      cases h
    | ok scope =>
      simp only [bind, Except.bind, hscope, AuthService.generate] at h
      split at h
      · cases h
      · next hgen =>
        split at hgen
        · cases hgen
        · next hsecret =>
          split at hgen
          · cases hgen
          · next hne =>
            obtain rfl := Except.ok.inj hgen
            obtain rfl := Except.ok.inj h
            rw [not_or] at hne
            exact ⟨⟨hsecret, hreads, scope, hscope, hne⟩, rfl, rfl, rfl, scope,
              mem_of_selectMembership hscope, rfl, rfl⟩

theorem exists_issueFor (user : User)
    (h : service.CanIssue store reads user.id tenantId teamId) :
    ∃ r, service.issueFor store reads user tenantId teamId = .ok r := by
  obtain ⟨hsecret, hreads, scope, hscope, hne⟩ := h
  rw [← not_or] at hne
  unfold AuthService.issueFor AuthService.generate
  simp only [hreads, bind, Except.bind, hscope, if_neg hsecret, if_neg hne]
  exact ⟨_, rfl⟩

/-- **A token is borne out where its account stands.** -/
theorem honours_of_issueFor (h : service.issueFor store reads user tenantId teamId = .ok r)
    (huser : ∃ u ∈ store.users, u.id = user.id ∧ u.username = user.username ∧
      u.status = .active ∧ u.role = user.role) :
    store.Honours service.same r.accessToken := by
  obtain ⟨-, hid, hname, hrole, scope, hscope, htenant, hteam⟩ := issueFor_ok h
  refine ⟨?_, ?_⟩
  · rw [hid, hname, hrole]
    exact huser
  · rw [hid, htenant, hteam]
    exact mem_listActiveMemberships hscope

/-- **A login re-reads the account.** -/
theorem honours_of_login {username password : String}
    (h : service.login store reads username password tenantId teamId = .ok r) :
    store.Honours service.same r.accessToken := by
  unfold AuthService.login at h
  split at h
  · cases h
  · split at h
    · cases h
    · next user hfind =>
      have hmem : user ∈ store.users := by
        split at hfind
        · exact List.mem_of_find?_eq_some hfind
        · cases hfind
      split at h
      · cases h
      · next hactive =>
        split at h
        · cases h
        · exact honours_of_issueFor h ⟨user, hmem, rfl, rfl, not_not.mp hactive, rfl⟩

end Tokens

/-! ### Runs -/

/-- A change of the tables. -/
inductive StoreChange where
  | userStatus (id : ℤ) (status : AccountStatus)
  | userRole (id : ℤ) (role : AccountRole)
  | membershipStatus (id : ℤ) (status : AccountStatus)
  | teamStatus (id : String) (status : AccountStatus)
  | tenantStatus (id : String) (status : AccountStatus)
  deriving DecidableEq, Repr

/-- The users after a change. -/
def StoreChange.user : StoreChange → User → User
  | .userStatus id status, user => if user.id = id then { user with status } else user
  | .userRole id role, user => if user.id = id then { user with role } else user
  | _, user => user

@[simp] theorem StoreChange.user_id (c : StoreChange) (user : User) :
    (c.user user).id = user.id := by
  unfold StoreChange.user
  split <;> (try split) <;> rfl

@[simp] theorem StoreChange.user_username (c : StoreChange) (user : User) :
    (c.user user).username = user.username := by
  unfold StoreChange.user
  split <;> (try split) <;> rfl

/-- The tables after a change. -/
def AuthStore.change (store : AuthStore) (c : StoreChange) : AuthStore where
  users := store.users.map c.user
  memberships :=
    match c with
    | .membershipStatus id status =>
      store.memberships.map fun m => if m.id = id then { m with status } else m
    | _ => store.memberships
  teams :=
    match c with
    | .teamStatus id status =>
      store.teams.map fun team => if team.id = id then { team with status } else team
    | _ => store.teams
  tenants :=
    match c with
    | .tenantStatus id status =>
      store.tenants.map fun tenant => if tenant.id = id then { tenant with status } else tenant
    | _ => store.tenants
  users_nodup := by
    have hids : (fun user => user.id) ∘ c.user = fun user : User => user.id :=
      funext c.user_id
    rw [List.map_map, hids]
    exact store.users_nodup

/-- What happens to the service. -/
inductive AuthEvent where
  | login (reads : AuthReads) (username password tenantId teamId : String)
  | switchTeam (reads : AuthReads) (claims : TokenClaims) (tenantId teamId : String)
  | change (c : StoreChange)
  deriving DecidableEq, Repr

/-- **A state of the service**: the tables, and the tokens issued so far, each with the
tables as they were at that moment. -/
structure AuthState where
  store : AuthStore
  issued : List (TokenClaims × AuthStore) := []

namespace AuthState

/-- The token has been issued. -/
def Accepts (s : AuthState) (claims : TokenClaims) : Prop := claims ∈ s.issued.map Prod.fst

instance decidableAccepts (s : AuthState) (claims : TokenClaims) : Decidable (s.Accepts claims) :=
  inferInstanceAs (Decidable (claims ∈ s.issued.map Prod.fst))

/-- The state after a call. -/
def record (s : AuthState) : Except String LoginResult → AuthState
  | .ok r => { s with issued := s.issued ++ [(r.accessToken, s.store)] }
  | .error _ => s

/-- **One step.** A token that was not issued is refused before the service is called. -/
def step (service : AuthService) (s : AuthState) : AuthEvent → Option AuthState
  | .login reads username password tenantId teamId =>
    some (s.record (service.login s.store reads username password tenantId teamId))
  | .switchTeam reads claims tenantId teamId =>
    if s.Accepts claims then
      some (s.record (service.switchTeam s.store reads claims tenantId teamId))
    else some s
  | .change c => some { s with store := s.store.change c }

/-- **Every token was borne out** by the tables at the moment at which it was issued. -/
def Honoured (service : AuthService) (s : AuthState) : Prop :=
  ∀ i ∈ s.issued, i.2.Honours service.same i.1

/-- **What a step has to meet**: where `SwitchTeam` can issue a token, the account of the
token that it is called with is active and has the role of that token. -/
def SwitchesStanding (service : AuthService) (s : AuthState) : AuthEvent → Prop
  | .switchTeam reads claims tenantId teamId =>
    s.Accepts claims → service.CanIssue s.store reads claims.userId tenantId teamId →
      s.store.Stands claims
  | .login .. | .change _ => True

/-- Every token names an account that is in the tables. -/
def Named (s : AuthState) : Prop :=
  ∀ i ∈ s.issued, ∃ user ∈ s.store.users, user.id = i.1.userId ∧ user.username = i.1.username

section Steps

variable {service : AuthService} {s : AuthState} {result : Except String LoginResult}

theorem forall_record {P : TokenClaims × AuthStore → Prop} (h : ∀ i ∈ s.issued, P i)
    (hr : ∀ r, result = .ok r → P (r.accessToken, s.store)) :
    ∀ i ∈ (s.record result).issued, P i := by
  cases result with
  | error e => exact h
  | ok r =>
    intro i hi
    rcases List.mem_append.mp hi with hi | hi
    · exact h i hi
    · obtain rfl := List.mem_singleton.mp hi
      exact hr r rfl

@[simp] theorem record_store : (s.record result).store = s.store := by cases result <;> rfl

/-- A call keeps the invariant if its token is borne out. -/
theorem keeps_record (h : s.Honoured service ∧ s.Named)
    (hr : ∀ r, result = .ok r → s.store.Honours service.same r.accessToken) :
    (s.record result).Honoured service ∧ (s.record result).Named := by
  refine ⟨forall_record h.1 hr, ?_⟩
  unfold Named
  rw [record_store]
  refine forall_record h.2 fun r hresult => ?_
  obtain ⟨user, hmem, hid, hname, -, -⟩ := (hr r hresult).account
  exact ⟨user, hmem, hid, hname⟩

/-- **One step keeps the tokens borne out**, if it meets the condition. -/
theorem keeps_step {e : AuthEvent} {t : AuthState} (h : s.Honoured service ∧ s.Named)
    (he : s.SwitchesStanding service e) (hstep : s.step service e = some t) :
    t.Honoured service ∧ t.Named := by
  cases e with
  | login reads username password tenantId teamId =>
    obtain rfl := Option.some.inj hstep
    exact keeps_record h fun r hr => honours_of_login hr
  | change c =>
    obtain rfl := Option.some.inj hstep
    refine ⟨h.1, fun i hi => ?_⟩
    obtain ⟨user, hmem, hid, hname⟩ := h.2 i hi
    exact ⟨c.user user, List.mem_map_of_mem hmem, by simpa using hid, by simpa using hname⟩
  | switchTeam reads claims tenantId teamId =>
    simp only [step] at hstep
    split at hstep
    · next haccepts =>
      obtain rfl := Option.some.inj hstep
      refine keeps_record h fun r hr => ?_
      obtain ⟨user, hmem, hid, hactive, hrole⟩ := he haccepts (issueFor_ok hr).1
      -- the account is the one that the token was issued for
      obtain ⟨i, hi, rfl⟩ := List.mem_map.mp haccepts
      obtain ⟨named, hnamed, hid', hname⟩ := h.2 i hi
      obtain rfl := List.inj_on_of_nodup_map s.store.users_nodup hmem hnamed (hid.trans hid'.symm)
      exact honours_of_issueFor hr ⟨user, hmem, hid, hname, hactive, hrole⟩
    · obtain rfl := Option.some.inj hstep
      exact h

/-- **A step that misses the condition issues a token that is not borne out.** -/
theorem breaks_step {e : AuthEvent} (he : ¬ s.SwitchesStanding service e) :
    ∃ t, s.step service e = some t ∧ ¬ t.Honoured service := by
  cases e with
  | login => exact absurd trivial he
  | change => exact absurd trivial he
  | switchTeam reads claims tenantId teamId =>
    simp only [SwitchesStanding, Classical.not_imp] at he
    obtain ⟨haccepts, hissue, hstands⟩ := he
    obtain ⟨r, hr⟩ := exists_issueFor
      { id := claims.userId, username := claims.username, role := claims.role
        status := .active } hissue
    refine ⟨s.record (.ok r), ?_, fun hall => hstands ?_⟩
    · simp only [step, if_pos haccepts]
      exact congrArg (fun result => some (s.record result)) hr
    · obtain ⟨-, hid, -, hrole, -⟩ := issueFor_ok hr
      obtain ⟨user, hmem, hid', -, hactive, hrole'⟩ :=
        (hall (r.accessToken, s.store) (by simp [record])).account
      exact ⟨user, hmem, hid'.trans hid, hactive, hrole'.trans hrole⟩

end Steps

end AuthState

/-- **When the tokens honour the tables.** For every service, all tables, and every run of
logins, team switches and changes of the tables, from a state in which no token has been
issued: every token was borne out by the tables when it was issued if and only if every
team switch that could issue one was called for an account that was active and had the role
of its token. -/
theorem tokens_honour_iff (service : AuthService) (store : AuthStore) (events : List AuthEvent) :
    Runs.Throughout (AuthState.step service) (AuthState.Honoured service) { store } events ↔
      Runs.Along (AuthState.step service) (AuthState.SwitchesStanding service) { store }
        events := by
  refine Runs.throughout_iff_along (I := fun s : AuthState => s.Honoured service ∧ s.Named)
    (L := fun _ => True) (fun s h => h.1) (fun s e t _ h he hstep => ?_)
    (fun s e _ _ he => ?_) (fun _ _ => trivial) ?_
  · exact AuthState.keeps_step h he hstep
  · exact AuthState.breaks_step he
  · constructor <;> rintro i ⟨⟩

/-- A service whose passwords are their own hashes. -/
def plainService : AuthService where
  secret := "secret"
  compareHashAndPassword hash password := hash = password
  same a b := a = b

/-- The tables of one account with one team. -/
def oneAccount : AuthStore where
  users := [⟨1, "alice", "pw", .user, .active⟩]
  tenants := [⟨"acme", "Acme", .active⟩]
  teams := [⟨"sre", "acme", "SRE", .active⟩]
  memberships := [⟨1, 1, "acme", "sre", .member, .active⟩]
  users_nodup := List.nodup_singleton _

/-- The token of this account. -/
def aliceToken : TokenClaims := ⟨1, "alice", .user, "acme", "sre"⟩

/-- **A disabled account is issued a token.** -/
theorem switchTeam_of_disabled :
    ¬ ∀ service store events,
      Runs.Throughout (AuthState.step service) (AuthState.Honoured service) { store } events := by
  intro hall
  have h := hall plainService oneAccount
    [.login {} "alice" "pw" "" "", .change (.userStatus 1 .disabled),
      .switchTeam {} aliceToken "acme" "sre"] _ List.prefix_rfl _ rfl
  obtain ⟨user, hmem, -, -, hactive, -⟩ :=
    (h (aliceToken, oneAccount.change (.userStatus 1 .disabled)) (by
      exact List.mem_cons_of_mem _ List.mem_cons_self)).account
  obtain rfl := List.mem_singleton.mp hmem
  cases hactive

end MonitorSystem
