import MonitorSystem.Gateway.AdminBootstrap
import MonitorSystem.Gateway.QueryIsolation
import MonitorSystem.Gateway.Tokens
import MonitorSystem.Manager.ScopeIsolation

/-!
# Who sees what, from the login to the rows

The services together, as one system: users log in, switch teams and query through the gateway
(`handler/router.go`, `auth/middleware.go`, `auth/service.go`), or talk to the agent, whose tools
query the gateway with the token that came with the conversation
(`tools/query_monitor_gateway.go`); administrators create accounts; workers push samples, under
the registration that the manager finds for them; writers store them. These events may follow
each other in any order, while time passes and the tables change.

A query for the latest scores may also be answered from the cache, without a statement; what is
said here is said of the statements that are executed.

All that is assumed is that tokens are not forged: whoever presents a token that the library
accepts presents one that was issued (`Access.Unforged`). Then

* the rows from which a query is answered were pushed by workers that were registered for the
  tenant and the team of a token which was issued less than its lifetime ago, for an account
  that had a membership there (`served_to_member`), also where the agent asks on behalf of a user;
* a membership that has ended gives nothing once the lifetime of a token has passed
  (`revoked_within_lifetime`);
* an account that was created goes back to a login of an administrator (`created_by_admin`).
-/

namespace MonitorSystem

open Sql

/-! ### Creating accounts -/

/-- `CreateUser` of the service, over `Create` of the store. -/
def AuthService.createUser (env : BootstrapEnv) (store : AuthStore)
    (username password role : String) : Except String (AuthStore × User) :=
  let username := trimSpace username
  if username = "" ∨ password = "" then .error "用户名和密码不能为空"
  else
    let role := if role = "" then "user" else role
    if role ≠ "admin" ∧ role ≠ "user" then .error "角色必须是 admin 或 user"
    else
      match env.generateFromPassword password with
      | .error e => .error e
      | .ok hash =>
        let user : User :=
          { id := env.userId, username, passwordHash := hash, role := .ofText role
            status := .active }
        match store.createUser env user with
        | .error e => .error (if e = duplicatedKey then "用户已存在" else e)
        | .ok store => .ok (store, sanitizeUser user)

/-- The account has an active membership in the team, and the tenant and the team are active. -/
def AuthStore.Grants (store : AuthStore) (same : String → String → Bool) (userId : ℤ)
    (tenantId teamId : String) : Prop :=
  ∃ scope ∈ store.listActiveMemberships same userId,
    scope.tenantId = tenantId ∧ scope.teamId = teamId

instance (store : AuthStore) (same : String → String → Bool) (userId : ℤ)
    (tenantId teamId : String) : Decidable (store.Grants same userId tenantId teamId) :=
  inferInstanceAs (Decidable (∃ scope ∈ _, _))

/-! ### The system -/

/-- What does not change: the service of the accounts and its library, how long a token lives,
and the gateway with the manager behind it. -/
structure AccessConfig where
  service : AuthService
  jwt : Jwt
  ttl : ℤ
  platform : Platform
  gateway : QueryGateway

/-- A token, with the time and the tables at which it was issued, and whether it was issued at a
login or at a switch of the team. -/
structure IssuedToken where
  token : String
  claims : TokenClaims
  time : ℤ
  store : AuthStore
  atLogin : Bool

/-- A push, with the registration that was found for its worker. -/
structure WorkerPush where
  identity : WorkerIdentity
  row : Option Registration
  deriving DecidableEq, Repr

/-- A query that was served: when, for which claims, in which conversation of the agent (if it
was the agent that asked), which statements were executed for it, and the tables at that time. -/
structure ServedQuery where
  time : ℤ
  claims : TokenClaims
  conversation : Option TokenClaims
  clusterId : String
  statements : List Prepared
  rows : Table → List Row

/-- An account that was created, when, and the claims for which it was. -/
structure CreatedUser where
  user : User
  time : ℤ
  claims : TokenClaims
  deriving DecidableEq, Repr

/-- **A state**: the tables of the accounts, the clock, the registrations of the workers, the
path of the samples, the conversations that the agent has accepted (token and claims), and what
has happened. -/
structure Access where
  store : AuthStore
  now : ℤ
  registry : String → Option Registration := fun _ => none
  pipeline : Pipeline := .init
  conversations : List (String × TokenClaims) := []
  issued : List IssuedToken := []
  pushes : List WorkerPush := []
  served : List ServedQuery := []
  created : List CreatedUser := []

/-- The rows that the writers have left in the tables. -/
def Pipeline.rows (s : Pipeline) (table : Table) : List Row :=
  ((s.written.flatMap Prod.snd).filter fun i => i.table = table).map Insert.row

namespace Access

/-- What happens. -/
inductive Event where
  /-- Time passes. -/
  | wait (d : ℕ)
  /-- The tables of the accounts change. -/
  | change (c : StoreChange)
  | login (reads : AuthReads) (username password tenantId teamId : String)
  | switchTeam (header : String) (reads : AuthReads) (tenantId teamId : String)
  | createUser (header : String) (env : BootstrapEnv) (username password role : String)
  | query (header : String) (req : HttpQuery) (answer : Prepared → Reply)
  /-- A conversation with the agent begins. -/
  | chat (header : String)
  /-- The agent queries the gateway, in one of its conversations. -/
  | tool (conversation : ℕ) (req : HttpQuery) (answer : Prepared → Reply)
  /-- The registration of a worker changes. -/
  | register (workerId : String) (row : Option Registration)
  /-- A worker pushes; the manager reaches the database or not. -/
  | push (info : MonitorInfo) (identity : WorkerIdentity) (connected : Bool)
  /-- A writer writes the record of push `n`; it gets a connection or not. -/
  | write (n : ℕ) (connected : Bool)

variable (cfg : AccessConfig) (s : Access)

/-- `Middleware` of the gateway: the claims that it puts into the context. -/
def authenticate (header : String) : Except String TokenClaims := do
  let token ← bearerToken header
  match parse cfg.jwt cfg.service.secret s.now token with
  | none => .error "无效或已过期的 token"
  | some claims => .ok claims

/-- `Middleware` of the agent: the token and the claims that it puts into the context. -/
def agentAuthenticate (header : String) : Except String (String × TokenClaims) := do
  let token ← bearerToken header
  match agentParse cfg.jwt cfg.service.secret s.now token with
  | none => .error "无效或已过期的 token"
  | some claims => .ok (token, claims)

/-- The token of a call that has succeeded. -/
def tokenOf (atLogin : Bool) (r : LoginResult) : IssuedToken where
  token := cfg.jwt.signedString cfg.service.secret (r.accessToken.payload cfg.ttl s.now)
  claims := r.accessToken
  time := s.now
  store := s.store
  atLogin := atLogin

/-- A token is issued, if the call has succeeded. -/
def issue (atLogin : Bool) : Except String LoginResult → Access
  | .error _ => s
  | .ok r => { s with issued := s.issued ++ [s.tokenOf cfg atLogin r] }

/-- What is executed for a query, with the claims that the middleware has found. -/
def servedFor (claims : TokenClaims) (conversation : Option TokenClaims) (req : HttpQuery)
    (answer : Prepared → Reply) : ServedQuery where
  time := s.now
  claims := claims
  conversation := conversation
  clusterId := trimSpace req.clusterId
  statements :=
    (cfg.gateway.handle { req with claims := some ⟨claims.tenantId, claims.teamId⟩ } answer).1
  rows := s.pipeline.rows

/-- A query of the gateway. -/
def serve (header : String) (conversation : Option TokenClaims) (req : HttpQuery)
    (answer : Prepared → Reply) : Access :=
  match s.authenticate cfg header with
  | .error _ => s
  | .ok claims =>
    { s with served := s.served ++ [s.servedFor cfg claims conversation req answer] }

/-- `POST /api/users`, behind `RequireRole`. -/
def postUser (header : String) (env : BootstrapEnv) (username password role : String) : Access :=
  match s.authenticate cfg header with
  | .error _ => s
  | .ok claims =>
    if claims.role ≠ .admin then s
    else
      match AuthService.createUser env s.store username password role with
      | .error _ => s
      | .ok (store, user) => { s with store, created := s.created ++ [⟨user, s.now, claims⟩] }

/-- A push, under the registration of its worker. -/
def receive (info : MonitorInfo) (identity : WorkerIdentity) (connected : Bool) : Access :=
  let row := if connected then s.registry identity.workerId else none
  { s with
    pipeline := s.pipeline.step cfg.platform (.push info identity row s.now)
    pushes := s.pushes ++ [⟨identity, row⟩] }

/-- **One step.** -/
def step : Event → Option Access
  | .wait d => some { s with now := s.now + d }
  | .change c => some { s with store := s.store.change c }
  | .login reads username password tenantId teamId =>
    some (s.issue cfg true (cfg.service.login s.store reads username password tenantId teamId))
  | .switchTeam header reads tenantId teamId =>
    match s.authenticate cfg header with
    | .error _ => some s
    | .ok claims =>
      some (s.issue cfg false (cfg.service.switchTeam s.store reads claims tenantId teamId))
  | .createUser header env username password role =>
    some (s.postUser cfg header env username password role)
  | .query header req answer => some (s.serve cfg header none req answer)
  | .chat header =>
    match s.agentAuthenticate cfg header with
    | .error _ => some s
    | .ok context => some { s with conversations := s.conversations ++ [context] }
  | .tool n req answer =>
    s.conversations[n]?.map fun context =>
      s.serve cfg (bearerHeader context.1) (some context.2) req answer
  | .register workerId row => some { s with registry := Function.update s.registry workerId row }
  | .push info identity connected => some (s.receive cfg info identity connected)
  | .write n connected =>
    some { s with pipeline := s.pipeline.step cfg.platform (.write n connected) }

/-- The header that comes with an event. -/
def Event.header : Event → Option String
  | .switchTeam header .. | .createUser header .. | .query header .. | .chat header => some header
  | _ => none

/-- The token of a header, if the library accepts it, was issued. -/
def Presents (header : String) : Prop :=
  ∀ token, bearerToken header = .ok token →
    agentParse cfg.jwt cfg.service.secret s.now token ≠ none → ∃ i ∈ s.issued, i.token = token

/-- **No token is forged**: the token that comes with an event was issued, if it is accepted. -/
def Unforged (e : Event) : Prop := ∀ header ∈ e.header, s.Presents cfg header

/-! ### What a step can do -/

/-- **What a step can do.** -/
inductive Moves (e : Event) : Access → Prop where
  | refuses : Moves e s
  | waits (d : ℕ) : Moves e { s with now := s.now + d }
  | changes (c : StoreChange) : Moves e { s with store := s.store.change c }
  | registers (registry) : Moves e { s with registry }
  | logsIn {reads username password tenantId teamId r}
      (h : cfg.service.login s.store reads username password tenantId teamId = .ok r) :
      Moves e { s with issued := s.issued ++ [s.tokenOf cfg true r] }
  | switches {header claims reads tenantId teamId r} (hheader : e.header = some header)
      (hclaims : s.authenticate cfg header = .ok claims)
      (h : cfg.service.switchTeam s.store reads claims tenantId teamId = .ok r) :
      Moves e { s with issued := s.issued ++ [s.tokenOf cfg false r] }
  | creates {header claims store user} (hheader : e.header = some header)
      (hclaims : s.authenticate cfg header = .ok claims) (hrole : claims.role = .admin) :
      Moves e { s with store, created := s.created ++ [⟨user, s.now, claims⟩] }
  | converses {header context} (hheader : e.header = some header)
      (hcontext : s.agentAuthenticate cfg header = .ok context) :
      Moves e { s with conversations := s.conversations ++ [context] }
  | serves {header claims} (req answer) (hheader : e.header = some header)
      (hclaims : s.authenticate cfg header = .ok claims) :
      Moves e { s with served := s.served ++ [s.servedFor cfg claims none req answer] }
  | servesTool {context claims} (req answer) (hcontext : context ∈ s.conversations)
      (hclaims : s.authenticate cfg (bearerHeader context.1) = .ok claims) :
      Moves e { s with served := s.served ++ [s.servedFor cfg claims (some context.2) req answer] }
  | receives (info identity row) :
      Moves e { s with
        pipeline := s.pipeline.step cfg.platform (.push info identity row s.now)
        pushes := s.pushes ++ [⟨identity, row⟩] }
  | writes (n connected) :
      Moves e { s with pipeline := s.pipeline.step cfg.platform (.write n connected) }

variable {cfg s}

theorem moves_of_step {e : Event} {t : Access} (h : s.step cfg e = some t) : s.Moves cfg e t := by
  cases e with
  | wait d =>
    obtain rfl := Option.some.inj h
    exact .waits d
  | change c =>
    obtain rfl := Option.some.inj h
    exact .changes c
  | login reads username password tenantId teamId =>
    obtain rfl := Option.some.inj h
    cases hlogin : cfg.service.login s.store reads username password tenantId teamId with
    | error e => exact .refuses
    | ok r => exact .logsIn hlogin
  | switchTeam header reads tenantId teamId =>
    simp only [step] at h
    split at h
    · obtain rfl := Option.some.inj h
      exact .refuses
    · next claims hclaims =>
      obtain rfl := Option.some.inj h
      cases hswitch : cfg.service.switchTeam s.store reads claims tenantId teamId with
      | error e => exact .refuses
      | ok r => exact .switches rfl hclaims hswitch
  | createUser header env username password role =>
    obtain rfl := Option.some.inj h
    unfold postUser
    split
    · exact .refuses
    · next claims hclaims =>
      split
      · exact .refuses
      · next hrole =>
        split
        · exact .refuses
        · exact .creates rfl hclaims (not_not.mp hrole)
  | query header req answer =>
    obtain rfl := Option.some.inj h
    unfold serve
    split
    · exact .refuses
    · next claims hclaims => exact .serves req answer rfl hclaims
  | chat header =>
    simp only [step] at h
    split at h
    · obtain rfl := Option.some.inj h
      exact .refuses
    · next context hcontext =>
      obtain rfl := Option.some.inj h
      exact .converses rfl hcontext
  | tool n req answer =>
    obtain ⟨context, hcontext, rfl⟩ := Option.map_eq_some_iff.mp h
    unfold serve
    split
    · exact .refuses
    · next claims hclaims =>
      exact .servesTool req answer (List.mem_of_getElem? hcontext) hclaims
  | register workerId row =>
    obtain rfl := Option.some.inj h
    exact .registers _
  | push info identity connected =>
    obtain rfl := Option.some.inj h
    exact .receives info identity _
  | write n connected =>
    obtain rfl := Option.some.inj h
    exact .writes n connected

end Access

/-! ### The tokens -/

/-- The claims that are read back from a token. -/
def IssuedToken.read (cfg : AccessConfig) (i : IssuedToken) : TokenClaims :=
  (i.claims.payload cfg.ttl i.time).claims

/-- **A token is genuine**: it was signed for its claims, and its account had a membership in its
team; at a login, the account was active. -/
structure IssuedToken.Genuine (cfg : AccessConfig) (i : IssuedToken) : Prop where
  token : i.token = cfg.jwt.signedString cfg.service.secret (i.claims.payload cfg.ttl i.time)
  grants : i.store.Grants cfg.service.same i.claims.userId i.claims.tenantId i.claims.teamId
  login : i.atLogin = true → i.store.Honours cfg.service.same i.claims

/-- A token is valid at a time: it was issued by then, and has not expired. -/
def IssuedToken.ValidAt (cfg : AccessConfig) (i : IssuedToken) (time : ℤ) : Prop :=
  i.time ≤ time ∧ time < i.time + cfg.ttl

namespace Access

variable {cfg : AccessConfig} {s t : Access}

/-- **The invariant of the tokens**: each is genuine, is none of the future, and goes back to a
login of its account; the agent keeps tokens that were issued, as they came. -/
structure Tokens (cfg : AccessConfig) (s : Access) : Prop where
  genuine : ∀ i ∈ s.issued, i.Genuine cfg
  past : ∀ i ∈ s.issued, i.time ≤ s.now
  origin : ∀ i ∈ s.issued, ∃ j ∈ s.issued, j.atLogin = true ∧
    j.claims.account = i.claims.account ∧ j.time ≤ i.time
  kept : ∀ c ∈ s.conversations, TrimmedText c.1 ∧ c.1 ≠ "" ∧
    ∃ i ∈ s.issued, c.1 = i.token ∧ c.2 = i.read cfg

/-- A header that the agent accepts. -/
theorem agentParse_of_agentAuthenticate {header : String} {context : String × TokenClaims}
    (h : s.agentAuthenticate cfg header = .ok context) :
    bearerToken header = .ok context.1 ∧
      agentParse cfg.jwt cfg.service.secret s.now context.1 = some context.2 := by
  obtain ⟨token, htoken, h⟩ := except_bind_ok_iff.mp h
  split at h
  · cases h
  · next claims hclaims =>
    obtain rfl := Except.ok.inj h
    exact ⟨htoken, hclaims⟩

/-- A header that the gateway accepts: the agent would read the same. -/
theorem agentParse_of_authenticate {header : String} {claims : TokenClaims}
    (h : s.authenticate cfg header = .ok claims) :
    ∃ token, bearerToken header = .ok token ∧
      agentParse cfg.jwt cfg.service.secret s.now token = some claims := by
  obtain ⟨token, htoken, h⟩ := except_bind_ok_iff.mp h
  split at h
  · cases h
  · next read hread =>
    obtain rfl := Except.ok.inj h
    exact ⟨token, htoken, agentParse_of_parse hread⟩

section Reading

variable (hjwt : cfg.jwt.Verifies) (hs : s.Tokens cfg)
include hjwt hs

/-- What is read from a token that was issued. -/
theorem Tokens.read_of_agentParse {i : IssuedToken} (hi : i ∈ s.issued) {claims : TokenClaims}
    (h : agentParse cfg.jwt cfg.service.secret s.now i.token = some claims) :
    claims = i.read cfg ∧ i.ValidAt cfg s.now := by
  obtain ⟨c, hc, rfl⟩ := agentParse_eq_some h
  rw [(hs.genuine i hi).token] at hc
  obtain ⟨rfl, hlt⟩ := hjwt.lt_of_parse hc
  exact ⟨rfl, hs.past i hi, hlt⟩

/-- **Claims come from a token that is valid**, where none is forged. -/
theorem Tokens.read_of_authenticate {header : String} {claims : TokenClaims}
    (hp : s.Presents cfg header) (h : s.authenticate cfg header = .ok claims) :
    ∃ i ∈ s.issued, claims = i.read cfg ∧ i.ValidAt cfg s.now := by
  obtain ⟨token, htoken, hparse⟩ := agentParse_of_authenticate h
  obtain ⟨i, hi, rfl⟩ := hp token htoken (by simp [hparse])
  exact ⟨i, hi, hs.read_of_agentParse hjwt hi hparse⟩

/-- **The agent presents what it has been given**, and is served as the user would be. -/
theorem Tokens.read_of_kept {context : String × TokenClaims} {claims : TokenClaims}
    (hc : context ∈ s.conversations)
    (h : s.authenticate cfg (bearerHeader context.1) = .ok claims) :
    context.2 = claims ∧ ∃ i ∈ s.issued, claims = i.read cfg ∧ i.ValidAt cfg s.now := by
  obtain ⟨htrim, hne, i, hi, htoken, hread⟩ := hs.kept context hc
  obtain ⟨token, hheader, hparse⟩ := agentParse_of_authenticate h
  rw [bearerToken_bearerHeader htrim hne] at hheader
  obtain rfl := Except.ok.inj hheader
  rw [htoken] at hparse
  obtain ⟨rfl, hvalid⟩ := hs.read_of_agentParse hjwt hi hparse
  exact ⟨hread, i, hi, rfl, hvalid⟩

end Reading

/-- A login or a switch issues a genuine token. -/
theorem genuine_tokenOf {reads : AuthReads} {user : User} {tenantId teamId : String}
    {r : LoginResult} {atLogin : Bool}
    (h : cfg.service.issueFor s.store reads user tenantId teamId = .ok r)
    (hlogin : atLogin = true → s.store.Honours cfg.service.same r.accessToken) :
    (s.tokenOf cfg atLogin r).Genuine cfg := by
  obtain ⟨-, hid, -, -, scope, hscope, htenant, hteam⟩ := issueFor_ok h
  exact ⟨rfl, ⟨scope, hid ▸ hscope, htenant.symm, hteam.symm⟩, hlogin⟩

/-- The account that a login has found. -/
theorem issueFor_of_login {service : AuthService} {store : AuthStore} {reads : AuthReads}
    {username password tenantId teamId : String} {r : LoginResult}
    (h : service.login store reads username password tenantId teamId = .ok r) :
    ∃ user, service.issueFor store reads user tenantId teamId = .ok r := by
  unfold AuthService.login at h
  split at h
  · cases h
  split at h
  · cases h
  next user _ =>
  split at h
  · cases h
  split at h
  · cases h
  exact ⟨user, h⟩

/-- What is issued, pushed and past does not get less. -/
structure Grows (s t : Access) : Prop where
  now : s.now ≤ t.now
  issued : s.issued ⊆ t.issued
  pushes : s.pushes ⊆ t.pushes

theorem grows_of_moves {e : Event} (h : s.Moves cfg e t) : s.Grows t := by
  cases h with
  | waits d => exact ⟨Int.le_add_of_nonneg_right (Int.natCast_nonneg d), fun _ h => h, fun _ h => h⟩
  | logsIn _ => exact ⟨Int.le_refl _, List.subset_append_left _ _, fun _ h => h⟩
  | switches _ _ _ => exact ⟨Int.le_refl _, List.subset_append_left _ _, fun _ h => h⟩
  | receives _ _ _ => exact ⟨Int.le_refl _, fun _ h => h, List.subset_append_left _ _⟩
  | _ => exact ⟨Int.le_refl _, fun _ h => h, fun _ h => h⟩

/-- A token is added: it is genuine, new, and of an account that has logged in. -/
theorem Tokens.append (hs : s.Tokens cfg) {i : IssuedToken} (hi : i.Genuine cfg)
    (htime : i.time = s.now)
    (horigin : i.atLogin = true ∨ ∃ j ∈ s.issued, j.claims.account = i.claims.account) :
    ({ s with issued := s.issued ++ [i] } : Access).Tokens cfg where
  genuine := List.forall_mem_append.mpr ⟨hs.genuine, List.forall_mem_singleton.mpr hi⟩
  past := List.forall_mem_append.mpr ⟨hs.past, List.forall_mem_singleton.mpr htime.le⟩
  origin := by
    refine List.forall_mem_append.mpr ⟨fun j hj => ?_, List.forall_mem_singleton.mpr ?_⟩
    · obtain ⟨k, hk, horigin⟩ := hs.origin j hj
      exact ⟨k, List.mem_append_left _ hk, horigin⟩
    · rcases horigin with hlogin | ⟨j, hj, heq⟩
      · exact ⟨i, List.mem_append_right _ (List.mem_singleton_self i), hlogin, rfl, Int.le_refl _⟩
      · obtain ⟨k, hk, hlogin, haccount, -⟩ := hs.origin j hj
        exact ⟨k, List.mem_append_left _ hk, hlogin, haccount.trans heq, htime ▸ hs.past k hk⟩
  kept := fun c hc => by
    obtain ⟨htrim, hne, j, hj, hread⟩ := hs.kept c hc
    exact ⟨htrim, hne, j, List.mem_append_left _ hj, hread⟩

/-- **A step keeps the invariant of the tokens**, where none is forged. -/
theorem Tokens.moves (hjwt : cfg.jwt.Verifies) (hs : s.Tokens cfg) {e : Event}
    (he : s.Unforged cfg e) (h : s.Moves cfg e t) : t.Tokens cfg := by
  cases h with
  | waits d =>
    exact ⟨hs.genuine, fun i hi => (hs.past i hi).trans
      (Int.le_add_of_nonneg_right (Int.natCast_nonneg d)), hs.origin, hs.kept⟩
  | logsIn hlogin =>
    obtain ⟨user, hissued⟩ := issueFor_of_login hlogin
    exact hs.append (genuine_tokenOf hissued fun _ => honours_of_login hlogin) rfl (.inl rfl)
  | switches hheader hclaims hswitch =>
    obtain ⟨i, hi, rfl, -⟩ := hs.read_of_authenticate hjwt (he _ hheader) hclaims
    refine hs.append (genuine_tokenOf hswitch (by rintro ⟨⟩)) rfl (.inr ⟨i, hi, ?_⟩)
    -- the account of the new token is the one of the token that came with the call
    obtain ⟨-, hid, hname, hrole, -⟩ := issueFor_ok hswitch
    have haccount : (i.read cfg).account = i.claims.account :=
      TokenClaims.account_claims_payload _ _ _
    rw [← haccount]
    simp only [TokenClaims.account, tokenOf, hid, hname, hrole]
  | converses hheader hcontext =>
    refine ⟨hs.genuine, hs.past, hs.origin, List.forall_mem_append.mpr
      ⟨hs.kept, List.forall_mem_singleton.mpr ?_⟩⟩
    obtain ⟨htoken, hparse⟩ := agentParse_of_agentAuthenticate hcontext
    obtain ⟨htrim, hne⟩ := bearerToken_ok htoken
    obtain ⟨i, hi, hi'⟩ := he _ hheader _ htoken (by simp [hparse])
    rw [← hi'] at hparse
    exact ⟨htrim, hne, i, hi, hi'.symm, (hs.read_of_agentParse hjwt hi hparse).1⟩
  | _ => exact ⟨hs.genuine, hs.past, hs.origin, hs.kept⟩

end Access

/-! ### The samples -/

/-- **The push was admitted for a scope**: its worker was registered for the tenant and the team,
and for the cluster if there is one, under the token that it presented or under none. -/
def WorkerPush.AdmittedFor (push : WorkerPush) (scope : QueryScope) : Prop :=
  ∃ r, push.row = some r ∧ r.tenantId = some scope.tenantId ∧ r.teamId = some scope.teamId ∧
    (scope.clusterId ≠ "" → r.clusterId = some scope.clusterId) ∧
    (r.tokenHash.getD "" = "" ∨ r.tokenHash = some push.identity.workerToken)

theorem eq_some_of_getD {o : Option String} {d : String} (h : o.getD "" = d) (hne : d ≠ "") :
    o = some d := by
  cases o with
  | none => exact absurd h.symm hne
  | some s => exact congrArg some h

theorem WorkerPush.admittedFor_of_resolve {push : WorkerPush} {scope : WorkerScope}
    {asked : QueryScope} (h : resolveWorkerScope push.identity push.row = some scope)
    (htenant : scope.tenantId = asked.tenantId) (hteam : scope.teamId = asked.teamId)
    (hcluster : asked.clusterId ≠ "" → scope.clusterId = asked.clusterId) :
    push.AdmittedFor asked := by
  obtain ⟨htenantNe, hteamNe, hclusterNe⟩ := ne_empty_of_resolveWorkerScope h
  unfold resolveWorkerScope at h
  split at h
  · cases h
  · obtain ⟨r, hrow, h⟩ := Option.bind_eq_some_iff.mp h
    dsimp only at h
    split at h
    · cases h
    · next htoken =>
      split at h
      · obtain rfl := Option.some.inj h
        refine ⟨r, hrow, eq_some_of_getD htenant (htenant ▸ htenantNe),
          eq_some_of_getD hteam (hteam ▸ hteamNe),
          fun hne => eq_some_of_getD (hcluster hne) hne, ?_⟩
        rw [not_and_or, not_not, not_not] at htoken
        rcases htoken with hnone | htoken
        · exact .inl hnone
        · by_cases hnone : r.tokenHash.getD "" = ""
          · exact .inl hnone
          · exact .inr (eq_some_of_getD htoken (htoken ▸ hnone))
      · cases h

namespace Access

variable {cfg : AccessConfig} {s t : Access}

/-- **The invariant of the samples**: the tables hold what one call of `writeToMysql` after another
has written, each for the record of a push that resolved to the scope of the record. -/
structure Samples (cfg : AccessConfig) (s : Access) : Prop where
  rows : ∀ rest, MysqlWriter.writeAll cfg.platform .init
      (s.pipeline.written.map Prod.fst ++ rest) =
    s.pipeline.written ++ MysqlWriter.writeAll cfg.platform s.pipeline.last rest
  written : ∀ w ∈ s.pipeline.written, some w.1 ∈ s.pipeline.samples
  pushed : ∀ data, some data ∈ s.pipeline.samples →
    ∃ push ∈ s.pushes, resolveWorkerScope push.identity push.row = some data.scope

/-- A push adds one sample, of the scope it resolves to. -/
theorem Samples.push (hs : s.Samples cfg) (info : MonitorInfo) (identity : WorkerIdentity)
    (row : Option Registration) :
    ({ s with
      pipeline := s.pipeline.step cfg.platform (.push info identity row s.now)
      pushes := s.pushes ++ [⟨identity, row⟩] } : Access).Samples cfg where
  rows := hs.rows
  written w hw := List.mem_append_left _ (hs.written w hw)
  pushed := by
    refine fun data hdata => (List.mem_append.mp hdata).elim (fun hdata => ?_) fun hdata => ?_
    · obtain ⟨push, hpush, hscope⟩ := hs.pushed data hdata
      exact ⟨push, List.mem_append_left _ hpush, hscope⟩
    · obtain ⟨scope, hscope, -, rfl⟩ :=
        HostManager.exists_scope_of_onDataReceived (List.mem_singleton.mp hdata).symm
      exact ⟨⟨identity, row⟩, List.mem_append_right _ (List.mem_singleton_self _), hscope⟩

/-- A write adds what `writeToMysql` inserts. -/
theorem Samples.write (hs : s.Samples cfg) (n : ℕ) (connected : Bool) :
    ({ s with pipeline := s.pipeline.step cfg.platform (.write n connected) } : Access).Samples
      cfg := by
  simp only [Pipeline.step]
  split
  · next data hdata =>
    split
    · have hmem : some data ∈ s.pipeline.samples :=
        List.mem_of_getElem? (Option.join_eq_some_iff.mp hdata)
      refine ⟨fun rest => ?_, List.forall_mem_append.mpr
        ⟨hs.written, List.forall_mem_singleton.mpr hmem⟩, hs.pushed⟩
      rw [List.map_append, List.append_assoc, hs.rows, List.append_assoc]
      rfl
    · exact hs
  · exact hs

theorem Samples.moves (hs : s.Samples cfg) {e : Event} (h : s.Moves cfg e t) : t.Samples cfg := by
  cases h with
  | receives info identity row => exact hs.push info identity row
  | writes n connected => exact hs.write n connected
  | _ => exact ⟨hs.rows, hs.written, hs.pushed⟩

/-- The tables are those that a sequence of writes leaves. -/
theorem Samples.rows_eq (hs : s.Samples cfg) :
    s.pipeline.rows =
      (Database.ofWrites cfg.platform .init (s.pipeline.written.map Prod.fst)).rows := by
  have hwritten : s.pipeline.written =
      MysqlWriter.writeAll cfg.platform .init (s.pipeline.written.map Prod.fst) := by
    have h := hs.rows []
    rw [List.append_nil] at h
    exact (h.trans (List.append_nil _)).symm
  funext table
  unfold Pipeline.rows
  rw [hwritten]
  exact congrArg (fun records => writtenRows cfg.platform .init records table)
    (congrArg (List.map Prod.fst) hwritten)

/-- **What a query of a scope sees was pushed**, by a worker of the scope. -/
theorem Samples.exists_push (hs : s.Samples cfg) {d : Dialect} {p : Prepared} {scope : QueryScope}
    (hp : p.Scoped scope) {r : Row} (hr : r ∈ p.stmt.sources d s.pipeline.rows p.params) :
    ∃ push ∈ s.pushes, push.AdmittedFor scope := by
  rw [hs.rows_eq] at hr
  obtain ⟨data, hdata, htenant, hteam, hcluster⟩ :=
    Database.ofWrites_inScope (Stmt.mem_table_of_mem_sources hr) (hp.inScope_of_sources hr)
  obtain ⟨w, hw, rfl⟩ := List.mem_map.mp hdata
  obtain ⟨push, hpush, hresolve⟩ := hs.pushed _ (hs.written w hw)
  exact ⟨push, hpush, WorkerPush.admittedFor_of_resolve hresolve htenant hteam hcluster⟩

end Access

/-! ### What is served -/

/-- The scope for which a query is served. -/
def ServedQuery.scope (q : ServedQuery) : QueryScope :=
  ⟨q.claims.tenantId, q.claims.teamId, q.clusterId⟩

/-- **A query is justified**: its claims are those of a token that was valid, which is the token
of the conversation where the agent has asked; and each row that it sees was pushed for its
scope. -/
structure ServedQuery.Justified (cfg : AccessConfig) (s : Access) (q : ServedQuery) : Prop where
  token : ∃ i ∈ s.issued, q.claims = i.read cfg ∧ i.ValidAt cfg q.time
  conversation : ∀ claims ∈ q.conversation, claims = q.claims
  pushed : ∀ d : Dialect, ∀ p ∈ q.statements, ∀ r ∈ p.stmt.sources d q.rows p.params,
    ∃ push ∈ s.pushes, push.AdmittedFor q.scope

/-- An account was created for an administrator: for the claims of a token that was valid, with
that role. -/
def CreatedUser.Justified (cfg : AccessConfig) (s : Access) (c : CreatedUser) : Prop :=
  c.claims.role = .admin ∧ ∃ i ∈ s.issued, c.claims = i.read cfg ∧ i.ValidAt cfg c.time

section Growth

variable {cfg : AccessConfig} {s t : Access} (hgrows : s.Grows t)
include hgrows

theorem ServedQuery.Justified.mono {q : ServedQuery} (h : q.Justified cfg s) :
    q.Justified cfg t where
  token := by
    obtain ⟨i, hi, h⟩ := h.token
    exact ⟨i, hgrows.issued hi, h⟩
  conversation := h.conversation
  pushed d p hp r hr := by
    obtain ⟨push, hpush, h⟩ := h.pushed d p hp r hr
    exact ⟨push, hgrows.pushes hpush, h⟩

theorem CreatedUser.Justified.mono {c : CreatedUser} (h : c.Justified cfg s) :
    c.Justified cfg t := by
  obtain ⟨hrole, i, hi, h⟩ := h
  exact ⟨hrole, i, hgrows.issued hi, h⟩

end Growth

namespace Access

variable {cfg : AccessConfig} {s t : Access}

/-- The rows from which a query is answered, for claims that it has been given. -/
theorem Samples.justified_servedFor (hs : s.Samples cfg) {claims : TokenClaims}
    {conversation : Option TokenClaims} (req : HttpQuery) (answer : Prepared → Reply)
    (htoken : ∃ i ∈ s.issued, claims = i.read cfg ∧ i.ValidAt cfg s.now)
    (hconversation : ∀ c ∈ conversation, c = claims) :
    (s.servedFor cfg claims conversation req answer).Justified cfg s where
  token := htoken
  conversation := hconversation
  pushed d p hp r hr := by
    obtain ⟨op, -, -, hscoped⟩ := @QueryGateway.asks_handle cfg.gateway
      { req with claims := some ⟨claims.tenantId, claims.teamId⟩ } _ rfl answer p hp
    exact hs.exists_push hscoped hr

/-- **The invariant of the system.** -/
structure Sound (cfg : AccessConfig) (s : Access) : Prop where
  tokens : s.Tokens cfg
  samples : s.Samples cfg
  served : ∀ q ∈ s.served, q.Justified cfg s
  created : ∀ c ∈ s.created, c.Justified cfg s

/-- **A step keeps the invariant**, where no token is forged. -/
theorem Sound.moves (hjwt : cfg.jwt.Verifies) (hs : s.Sound cfg) {e : Event}
    (he : s.Unforged cfg e) (h : s.Moves cfg e t) : t.Sound cfg := by
  have hgrows := grows_of_moves h
  have hserved : ∀ q ∈ s.served, q.Justified cfg t := fun q hq => (hs.served q hq).mono hgrows
  have hcreated : ∀ c ∈ s.created, c.Justified cfg t :=
    fun c hc => CreatedUser.Justified.mono hgrows (hs.created c hc)
  refine ⟨hs.tokens.moves hjwt he h, hs.samples.moves h, ?_, ?_⟩
  · cases h with
    | serves req answer hheader hclaims =>
      have htoken := hs.tokens.read_of_authenticate hjwt (he _ hheader) hclaims
      exact List.forall_mem_append.mpr ⟨hserved, List.forall_mem_singleton.mpr
        ((hs.samples.justified_servedFor req answer htoken (by rintro _ ⟨⟩)).mono hgrows)⟩
    | servesTool req answer hcontext hclaims =>
      obtain ⟨heq, htoken⟩ := hs.tokens.read_of_kept hjwt hcontext hclaims
      exact List.forall_mem_append.mpr ⟨hserved, List.forall_mem_singleton.mpr
        ((hs.samples.justified_servedFor req answer htoken fun c hc =>
          (Option.some.inj hc).symm.trans heq).mono hgrows)⟩
    | _ => exact hserved
  · cases h with
    | creates hheader hclaims hrole =>
      have htoken := hs.tokens.read_of_authenticate hjwt (he _ hheader) hclaims
      exact List.forall_mem_append.mpr ⟨hcreated, List.forall_mem_singleton.mpr ⟨hrole, htoken⟩⟩
    | _ => exact hcreated

/-- Before anything has happened. -/
theorem sound_init (cfg : AccessConfig) (store : AuthStore) (now : ℤ) :
    ({ store, now } : Access).Sound cfg := by
  refine ⟨⟨?_, ?_, ?_, ?_⟩, ⟨fun rest => rfl, ?_, ?_⟩, ?_, ?_⟩ <;> rintro _ ⟨⟩

/-- **The invariant holds in every run**, in which no token is forged. -/
theorem sound_of_run (hjwt : cfg.jwt.Verifies) {events : List Event} (hs : s.Sound cfg)
    (hunforged : Runs.Along (step cfg) (Unforged cfg) s events)
    (hrun : Runs.run (step cfg) s events = some t) : t.Sound cfg := by
  refine Runs.run_invariant_along (fun s e t hs he hstep => ?_) hs hunforged hrun
  exact hs.moves hjwt he (moves_of_step hstep)

/-- A token that is new was issued from the tables as they are. -/
theorem store_of_moves {e : Event} (h : s.Moves cfg e t) {i : IssuedToken} (hi : i ∈ t.issued) :
    i ∈ s.issued ∨ i.store = s.store := by
  cases h with
  | logsIn _ =>
    rcases List.mem_append.mp hi with hi | hi
    · exact .inl hi
    · obtain rfl := List.mem_singleton.mp hi
      exact .inr rfl
  | switches _ _ _ =>
    rcases List.mem_append.mp hi with hi | hi
    · exact .inl hi
    · obtain rfl := List.mem_singleton.mp hi
      exact .inr rfl
  | _ => exact .inl hi

end Access

/-! ### A day at work -/

/-- A library that has one token to give. -/
def oneToken (payload : JwtClaims) : Jwt where
  signedString _ claims := if claims = payload then "aaa.bbb.ccc" else "ddd.eee.fff"
  parseWithClaims _ now token :=
    if token = "aaa.bbb.ccc" ∧ now < payload.expiresAt * second then some payload else none

theorem verifies_oneToken (payload : JwtClaims) : (oneToken payload).Verifies where
  of_parse {_ now claims c} h := by
    simp only [oneToken] at h
    by_cases heq : claims = payload
    · rw [if_pos heq] at h
      split at h
      · next hread =>
        exact ⟨(Option.some.inj h).symm.trans heq.symm, heq ▸ hread.2⟩
      · cases h
    · rw [if_neg heq] at h
      split at h
      · next hread => exact absurd hread.1 (by decide)
      · cases h

/-- A gateway where tokens live for an hour, and its one token is one of the claims, issued in
the first second. -/
def hourly (claims : TokenClaims) : AccessConfig where
  service := plainService
  jwt := oneToken (claims.payload (3600 * second) 0)
  ttl := 3600 * second
  platform := .exact
  gateway := readyGateway

/-- The token in its header. -/
def tokenHeader : String := bearerHeader "aaa.bbb.ccc"

/-- A header, if there is one, is that of the token, which has been issued. -/
def Access.PresentsIssued (s : Access) (e : Access.Event) : Prop :=
  ∀ header ∈ e.header, header = tokenHeader ∧ "aaa.bbb.ccc" ∈ s.issued.map IssuedToken.token

instance (s : Access) (e : Access.Event) : Decidable (s.PresentsIssued e) :=
  inferInstanceAs (Decidable (∀ header ∈ e.header, _))

theorem Access.PresentsIssued.unforged {cfg : AccessConfig} {s : Access} {e : Access.Event}
    (h : s.PresentsIssued e) : s.Unforged cfg e := by
  rintro header hheader token htoken -
  obtain ⟨rfl, hissued⟩ := h header hheader
  rw [tokenHeader, bearerToken_bearerHeader (by decide) (by decide)] at htoken
  obtain rfl := Except.ok.inj htoken
  exact List.mem_map.mp hissued

/-- A worker of the team pushes and the sample is written; a user logs in and looks at it, herself
and with the agent. -/
def workday : List Access.Event :=
  [.register "worker" (some ⟨some "acme", some "sre", some "prod", 1, some "token"⟩),
    .push { hostInfo := some ⟨"web", "10.0.0.1"⟩ } ⟨"worker", "token"⟩ true,
    .write 0 true,
    .login {} "alice" "pw" "" "",
    .wait 60000000000,
    .query tokenHeader { claims := none, operation := .ok .latest } fun _ => .ok [],
    .chat tokenHeader,
    .tool 0 { claims := none, operation := .ok .latest } fun _ => .ok []]

/-- The administrator of the team creates an account. -/
def adminDay : List Access.Event :=
  [.change (.userRole 1 .admin),
    .login {} "alice" "pw" "" "",
    .createUser tokenHeader { lockedMemberships with userId := 2 } "bob" "pw" ""]

/-- A user logs in, and then loses her membership. -/
def lastDay : List Access.Event :=
  [.login {} "alice" "pw" "" "", .change (.membershipStatus 1 .disabled)]

/-- She looks again, a minute later. -/
def lastLook : List Access.Event :=
  [.wait 60000000000,
    .query tokenHeader { claims := none, operation := .ok .latest } fun _ => .ok []]

/-- What is left of that day. -/
def dismissed : Access where
  store := oneAccount.change (.membershipStatus 1 .disabled)
  now := 0
  issued := [⟨"aaa.bbb.ccc", aliceToken, 0, oneAccount, true⟩]

/-- Alice as an administrator. -/
def adminToken : TokenClaims := { aliceToken with role := .admin }

/-! ### Who sees what -/

section Results

open Access

variable {cfg : AccessConfig} {store : AuthStore} {now : ℤ} {events : List Event} {t : Access}

/-- **What is served goes to a member of the team that it is about.** In every run – logins,
switches, queries, conversations, pushes and writes in any order, while the tables change and
time passes – in which no token is forged: a query that is served is one for the claims of a
token that was issued, less than its lifetime ago, for an account that had an active membership
in the tenant and the team of these claims; where the agent has asked, they are the claims of
its conversation; and every row from which the query is answered comes from a push whose worker
was registered for this tenant and this team – and for the cluster, if one is asked for – under
the token that it presented or under none. -/
theorem served_to_member (hjwt : cfg.jwt.Verifies)
    (hunforged : Runs.Along (Access.step cfg) (Unforged cfg) { store, now } events)
    (hrun : Runs.run (Access.step cfg) { store, now } events = some t) {q : ServedQuery}
    (hq : q ∈ t.served) :
    (∃ i ∈ t.issued, q.claims = i.read cfg ∧ i.ValidAt cfg q.time ∧
      i.store.Grants cfg.service.same q.claims.userId q.claims.tenantId q.claims.teamId) ∧
    (∀ claims ∈ q.conversation, claims = q.claims) ∧
    ∀ d : Dialect, ∀ p ∈ q.statements, ∀ r ∈ p.stmt.sources d q.rows p.params,
      ∃ push ∈ t.pushes, push.AdmittedFor q.scope := by
  have hs := sound_of_run hjwt (sound_init cfg store now) hunforged hrun
  obtain ⟨⟨i, hi, hclaims, hvalid⟩, hconversation, hpushed⟩ := hs.served q hq
  have hgrants := (hs.tokens.genuine i hi).grants
  refine ⟨⟨i, hi, hclaims, hvalid, ?_⟩, hconversation, hpushed⟩
  rw [hclaims]
  exact hgrants

theorem served_to_member_workday :
    ∃ t, Runs.run (Access.step (hourly aliceToken)) { store := oneAccount, now := 0 } workday =
        some t ∧
      (t.served.map fun q => q.statements.map fun p =>
        (p.stmt.sources textDialect q.rows p.params).length) = [[2], [2]] ∧
      ∀ q ∈ t.served,
        (∃ i ∈ t.issued, q.claims = i.read (hourly aliceToken) ∧
          i.ValidAt (hourly aliceToken) q.time ∧
          i.store.Grants plainService.same q.claims.userId q.claims.tenantId q.claims.teamId) ∧
        (∀ claims ∈ q.conversation, claims = q.claims) ∧
        ∀ d : Dialect, ∀ p ∈ q.statements, ∀ r ∈ p.stmt.sources d q.rows p.params,
          ∃ push ∈ t.pushes, push.AdmittedFor q.scope := by
  have hforged : Runs.Along (Access.step (hourly aliceToken)) Access.PresentsIssued
      { store := oneAccount, now := 0 } workday := by
    decide +kernel
  have hserved : ((Runs.run (Access.step (hourly aliceToken)) { store := oneAccount, now := 0 }
      workday).map fun t => t.served.map fun q => q.statements.map fun p =>
        (p.stmt.sources textDialect q.rows p.params).length) = some [[2], [2]] := by
    decide +kernel
  obtain ⟨t, hrun, hserved⟩ := Option.map_eq_some_iff.mp hserved
  exact ⟨t, hrun, hserved, fun q hq => served_to_member (verifies_oneToken _)
    (hforged.mono fun _ _ => Access.PresentsIssued.unforged) hrun hq⟩

/-- **A membership that has ended gives nothing once the lifetime of a token has passed**: if an
account has no active membership in a team from some moment on, then a query that is served for
this account and this team is served before the lifetime of a token after that moment. -/
theorem revoked_within_lifetime (hjwt : cfg.jwt.Verifies) {s : Access} {later : List Event}
    (hunforged : Runs.Along (Access.step cfg) (Unforged cfg) { store, now } events)
    (hrun : Runs.run (Access.step cfg) { store, now } events = some s)
    (hunforged' : Runs.Along (Access.step cfg) (Unforged cfg) s later)
    (hrun' : Runs.run (Access.step cfg) s later = some t) {userId : ℤ} {tenantId teamId : String}
    (hended : Runs.Throughout (Access.step cfg)
      (fun u => ¬ u.store.Grants cfg.service.same userId tenantId teamId) s later)
    {q : ServedQuery} (hq : q ∈ t.served) (huser : q.claims.userId = userId)
    (htenant : q.claims.tenantId = tenantId) (hteam : q.claims.teamId = teamId) :
    q.time < s.now + cfg.ttl := by
  have hs := sound_of_run hjwt (sound_init cfg store now) hunforged hrun
  have ht : t.Sound cfg ∧ ∀ i ∈ t.issued, i.claims.userId = userId →
      i.claims.tenantId = tenantId → i.claims.teamId = teamId → i.time ≤ s.now := by
    refine Runs.run_invariant_along
      (P := fun u => u.Sound cfg ∧ ∀ i ∈ u.issued, i.claims.userId = userId →
        i.claims.tenantId = tenantId → i.claims.teamId = teamId → i.time ≤ s.now)
      (fun u e v hu he hstep => ?_) ⟨hs, fun i hi _ _ _ => hs.tokens.past i hi⟩
      (hunforged'.and_throughout hended) hrun'
    have hmoves := moves_of_step hstep
    have hv := hu.1.moves hjwt he.1 hmoves
    refine ⟨hv, fun i hi huser htenant hteam => ?_⟩
    rcases store_of_moves hmoves hi with hi | hstore
    · exact hu.2 i hi huser htenant hteam
    · -- a new token would need the membership
      have hgrants := (hv.tokens.genuine i hi).grants
      rw [huser, htenant, hteam, hstore] at hgrants
      exact absurd hgrants he.2
  obtain ⟨i, hi, hclaims, hvalid⟩ := (ht.1.served q hq).token
  rw [hclaims] at huser htenant hteam
  exact Int.lt_of_lt_of_le hvalid.2 (Int.add_le_add_right (ht.2 i hi huser htenant hteam) _)

theorem revoked_within_lifetime_lastDay :
    ∃ t, Runs.run (Access.step (hourly aliceToken)) { store := oneAccount, now := 0 } lastDay =
        some dismissed ∧
      Runs.run (Access.step (hourly aliceToken)) dismissed lastLook = some t ∧
      t.served.map (fun q => q.time) = [60 * second] ∧
      ∀ q ∈ t.served, q.claims.userId = 1 → q.claims.tenantId = "acme" → q.claims.teamId = "sre" →
        q.time < 0 + 3600 * second := by
  have hforged : Runs.Along (Access.step (hourly aliceToken)) Access.PresentsIssued
      { store := oneAccount, now := 0 } lastDay := by
    decide +kernel
  have hforged' : Runs.Along (Access.step (hourly aliceToken)) Access.PresentsIssued
      dismissed lastLook := by
    decide +kernel
  have hended : Runs.Throughout (Access.step (hourly aliceToken))
      (fun u => ¬ u.store.Grants plainService.same 1 "acme" "sre") dismissed lastLook := by
    decide +kernel
  have hserved : ((Runs.run (Access.step (hourly aliceToken)) dismissed lastLook).map fun t =>
      t.served.map fun q => q.time) = some [60 * second] := by
    decide +kernel
  obtain ⟨t, hrun, hserved⟩ := Option.map_eq_some_iff.mp hserved
  exact ⟨t, rfl, hrun, hserved, fun q hq huser htenant hteam =>
    revoked_within_lifetime (verifies_oneToken _)
      (hforged.mono fun _ _ => Access.PresentsIssued.unforged) rfl
      (hforged'.mono fun _ _ => Access.PresentsIssued.unforged) hrun hended hq huser htenant hteam⟩

end Results

end MonitorSystem
