import MonitorSystem.Gateway.AuthService

/-!
# The first administrator

`BootstrapAdminIfEmpty` of `api_gateway/internal/auth/mysql_store.go`. Where there is no account
yet, a transaction creates one, with a tenant, a team and a membership. The error of the
transaction is assigned and not returned: if one of the four rows cannot be inserted, the tables
are left as they were and the caller is told that all is well (`bootstrap_honest_iff`).

A transaction commits exactly if its function succeeds. How a password is hashed, how the database
compares two texts, the numbers that it gives to new rows and the errors of its statements are
what a call meets.
-/

namespace MonitorSystem

/-- What a call of `BootstrapAdminIfEmpty` meets: the errors of its statements, the result of
`bcrypt.GenerateFromPassword`, how the database compares texts, and the ids of new rows. -/
structure BootstrapEnv where
  count : Option String := none
  generateFromPassword : String → Except String String
  same : String → String → Bool
  userId : ℤ
  membershipId : ℤ
  user : Option String := none
  tenant : Option String := none
  team : Option String := none
  membership : Option String := none

/-- The answer of the database where a key is there already. -/
def duplicatedKey : String := "duplicated key not allowed"

/-- `Create` of one row: the statement may fail, and it does where a key is taken. -/
def createRow (fault : Option String) (taken : Prop) [Decidable taken]
    (inserted : ¬ taken → AuthStore) : Except String AuthStore :=
  match fault with
  | some e => .error e
  | none => if h : taken then .error duplicatedKey else .ok (inserted h)

namespace AuthStore

variable (store : AuthStore) (env : BootstrapEnv)

/-- A user has the id or the name. -/
def HasUser (id : ℤ) (username : String) : Prop :=
  ∃ u ∈ store.users, u.id = id ∨ env.same u.username username

instance decidableHasUser (id : ℤ) (username : String) :
    Decidable (store.HasUser env id username) :=
  inferInstanceAs (Decidable (∃ u ∈ store.users, _))

/-- A tenant has the id. -/
def HasTenant (id : String) : Prop := ∃ tenant ∈ store.tenants, env.same tenant.id id

instance decidableHasTenant (id : String) : Decidable (store.HasTenant env id) :=
  inferInstanceAs (Decidable (∃ tenant ∈ store.tenants, _))

/-- A team has the id, or its tenant has one of the name. -/
def HasTeam (id tenantId name : String) : Prop :=
  ∃ team ∈ store.teams, env.same team.id id ∨
    env.same team.tenantId tenantId ∧ env.same team.name name

instance decidableHasTeam (id tenantId name : String) :
    Decidable (store.HasTeam env id tenantId name) :=
  inferInstanceAs (Decidable (∃ team ∈ store.teams, _))

/-- A membership has the id, or is one of the user in the team. -/
def HasMembership (id userId : ℤ) (tenantId teamId : String) : Prop :=
  ∃ m ∈ store.memberships, m.id = id ∨
    m.userId = userId ∧ env.same m.tenantId tenantId ∧ env.same m.teamId teamId

instance decidableHasMembership (id userId : ℤ) (tenantId teamId : String) :
    Decidable (store.HasMembership env id userId tenantId teamId) :=
  inferInstanceAs (Decidable (∃ m ∈ store.memberships, _))

/-- `Create` of a user. -/
def createUser (user : User) : Except String AuthStore :=
  createRow env.user (store.HasUser env user.id user.username) fun h =>
    { store with
      users := store.users ++ [user]
      users_nodup := by
        rw [List.map_append, List.nodup_append_comm]
        refine List.nodup_cons.mpr ⟨fun hmem => ?_, store.users_nodup⟩
        obtain ⟨u, hu, hid⟩ := List.mem_map.mp hmem
        exact h ⟨u, hu, .inl hid⟩ }

/-- `Create` of a tenant. -/
def createTenant (tenant : Tenant) : Except String AuthStore :=
  createRow env.tenant (store.HasTenant env tenant.id) fun _ =>
    { store with tenants := store.tenants ++ [tenant] }

/-- `Create` of a team. -/
def createTeam (team : Team) : Except String AuthStore :=
  createRow env.team (store.HasTeam env team.id team.tenantId team.name) fun _ =>
    { store with teams := store.teams ++ [team] }

/-- `Create` of a membership. -/
def createMembership (m : UserTeamMembership) : Except String AuthStore :=
  createRow env.membership (store.HasMembership env m.id m.userId m.tenantId m.teamId) fun _ =>
    { store with memberships := store.memberships ++ [m] }

end AuthStore

/-- `Transaction`. -/
def transaction (body : AuthStore → Except String AuthStore) (store : AuthStore) :
    AuthStore × Except String Unit :=
  match body store with
  | .error e => (store, .error e)
  | .ok store => (store, .ok ())

/-! ### The four rows -/

namespace BootstrapEnv

variable (env : BootstrapEnv)

def adminUser (username hash : String) : User where
  id := env.userId
  username := username
  passwordHash := hash
  role := .admin
  status := .active

/-- No id is given to it, and the column makes none. -/
def defaultTenant : Tenant where
  id := ""
  name := "Default-Tenant-01"
  status := .active

def defaultTeam : Team where
  id := ""
  tenantId := defaultTenant.id
  name := "Default-Team-01"
  status := .active

def ownership : UserTeamMembership where
  id := env.membershipId
  userId := env.userId
  tenantId := defaultTenant.id
  teamId := defaultTeam.id
  memberRole := .owner
  status := .active

end BootstrapEnv

open BootstrapEnv

/-- The function that `BootstrapAdminIfEmpty` hands to `Transaction`. -/
def createAdmin (env : BootstrapEnv) (username hash : String) (store : AuthStore) :
    Except String AuthStore := do
  let store ← store.createUser env (env.adminUser username hash)
  let store ← store.createTenant env defaultTenant
  let store ← store.createTeam env defaultTeam
  store.createMembership env env.ownership

/-- **`BootstrapAdminIfEmpty`.** -/
def bootstrapAdminIfEmpty (env : BootstrapEnv) (store : AuthStore) (username password : String) :
    AuthStore × Except String Unit :=
  match env.count with
  | some e => (store, .error e)
  | none =>
    if store.users.length > 0 then (store, .ok ())
    else if trimSpace username = "" ∨ password = "" then
      (store, .error "用户表为空时必须配置 ADMIN_USERNAME 和 ADMIN_PASSWORD")
    else
      match env.generateFromPassword password with
      | .error e => (store, .error e)
      -- the error of the transaction is not looked at
      | .ok hash => ((transaction (createAdmin env (trimSpace username) hash) store).1, .ok ())

/-! ### When the rows can be inserted -/

/-- **The four rows can be inserted**: no statement fails, and no key is taken. -/
structure Insertable (env : BootstrapEnv) (store : AuthStore) (username : String) : Prop where
  user : env.user = none
  user_free : ¬ store.HasUser env env.userId username
  tenant : env.tenant = none
  tenant_free : ¬ store.HasTenant env defaultTenant.id
  team : env.team = none
  team_free : ¬ store.HasTeam env defaultTeam.id defaultTenant.id defaultTeam.name
  membership : env.membership = none
  membership_free :
    ¬ store.HasMembership env env.membershipId env.userId defaultTenant.id defaultTeam.id

section Insert

variable {env : BootstrapEnv} {store store' : AuthStore} {username hash : String}

theorem createRow_ok_iff {fault : Option String} {taken : Prop} [Decidable taken]
    {inserted : ¬ taken → AuthStore} :
    createRow fault taken inserted = .ok store' ↔
      fault = none ∧ ∃ h : ¬ taken, inserted h = store' := by
  cases fault with
  | some e => simp [createRow]
  | none =>
    by_cases h : taken
    · simp [createRow, h]
    · simp [createRow, h]

theorem except_bind_ok_iff {α β : Type} {x : Except String α} {f : α → Except String β} {b : β} :
    (x >>= f) = .ok b ↔ ∃ a, x = .ok a ∧ f a = .ok b := by
  cases x with
  | error e =>
    refine iff_of_false (fun h => by cases h) ?_
    rintro ⟨a, h, -⟩
    cases h
  | ok a =>
    refine ⟨fun h => ⟨a, rfl, h⟩, ?_⟩
    rintro ⟨_, h, hf⟩
    obtain rfl := Except.ok.inj h
    exact hf

/-- **What the function of the transaction does**: it adds the four rows, if they can be
inserted. -/
theorem createAdmin_ok_iff : createAdmin env username hash store = .ok store' ↔
    Insertable env store username ∧ store'.users = store.users ++ [env.adminUser username hash] ∧
      store'.tenants = store.tenants ++ [defaultTenant] ∧
      store'.teams = store.teams ++ [defaultTeam] ∧
      store'.memberships = store.memberships ++ [env.ownership] := by
  simp only [createAdmin, except_bind_ok_iff, AuthStore.createUser, AuthStore.createTenant,
    AuthStore.createTeam, AuthStore.createMembership, createRow_ok_iff]
  constructor
  · rintro ⟨_, ⟨huser, huserFree, rfl⟩, _, ⟨htenant, htenantFree, rfl⟩, _, ⟨hteam, hteamFree, rfl⟩,
      hmembership, hmembershipFree, rfl⟩
    exact ⟨⟨huser, huserFree, htenant, htenantFree, hteam, hteamFree, hmembership,
      hmembershipFree⟩, rfl, rfl, rfl, rfl⟩
  · rintro ⟨h, husers, htenants, hteams, hmemberships⟩
    refine ⟨_, ⟨h.user, h.user_free, rfl⟩, _, ⟨h.tenant, h.tenant_free, rfl⟩, _,
      ⟨h.team, h.team_free, rfl⟩, h.membership, h.membership_free, ?_⟩
    obtain ⟨users, tenants, teams, memberships, hnodup⟩ := store'
    obtain rfl : users = _ := husers
    obtain rfl : tenants = _ := htenants
    obtain rfl : teams = _ := hteams
    obtain rfl : memberships = _ := hmemberships
    rfl

end Insert

/-! ### All or nothing, and honest -/

/-- The user has an active membership in an active team of an active tenant. -/
def AuthStore.Belongs (store : AuthStore) (user : User) : Prop :=
  ∃ m ∈ store.memberships, m.userId = user.id ∧ m.status = .active ∧
    (∃ tenant ∈ store.tenants, tenant.id = m.tenantId ∧ tenant.status = .active) ∧
    ∃ team ∈ store.teams, team.id = m.teamId ∧ team.tenantId = m.tenantId ∧ team.status = .active

/-- **All or nothing, and honest**: an error leaves the tables as they were, and without one there
are accounts; if there was none before, one of them is an active administrator of a team. -/
def HonestBootstrap (store : AuthStore) (result : AuthStore × Except String Unit) : Prop :=
  ((∃ e, result.2 = .error e) ∧ result.1 = store) ∨
    result.2 = .ok () ∧ result.1.users ≠ [] ∧
      (store.users = [] → ∃! user, user ∈ result.1.users ∧ user.role = .admin ∧
        user.status = .active ∧ result.1.Belongs user)

section Bootstrap

variable {env : BootstrapEnv} {store : AuthStore} {username password hash : String}

/-- The tables after a transaction that has succeeded. -/
theorem honest_of_createAdmin {store' : AuthStore} (hempty : store.users = [])
    (h : createAdmin env username hash store = .ok store') :
    HonestBootstrap store (store', .ok ()) := by
  obtain ⟨-, husers, htenants, hteams, hmemberships⟩ := createAdmin_ok_iff.mp h
  rw [hempty, List.nil_append] at husers
  refine .inr ⟨rfl, by simp [husers], fun _ => ⟨env.adminUser username hash, ?_, ?_⟩⟩
  · refine ⟨by simp [husers], rfl, rfl, env.ownership, ?_, rfl, rfl, ⟨defaultTenant, ?_, rfl, rfl⟩,
      defaultTeam, ?_, rfl, rfl, rfl⟩
    · simp [hmemberships]
    · simp [htenants]
    · simp [hteams]
  · rintro user ⟨hmem, -⟩
    simpa [husers] using hmem

/-- **Where the transaction is reached.** -/
structure ReachesTransaction (env : BootstrapEnv) (store : AuthStore) (username password : String) :
    Prop where
  count : env.count = none
  empty : store.users = []
  configured : trimSpace username ≠ "" ∧ password ≠ ""
  hashed : ∃ hash, env.generateFromPassword password = .ok hash

/-- A call that does not reach the transaction is honest. -/
theorem honest_or_reaches (env : BootstrapEnv) (store : AuthStore) (username password : String) :
    HonestBootstrap store (bootstrapAdminIfEmpty env store username password) ∧
        ¬ ReachesTransaction env store username password ∨
      ReachesTransaction env store username password := by
  unfold bootstrapAdminIfEmpty
  cases hcount : env.count with
  | some e =>
    refine .inl ⟨.inl ⟨⟨e, rfl⟩, rfl⟩, fun h => ?_⟩
    cases hcount.symm.trans h.count
  | none =>
    simp only
    split
    · next hlength =>
      have hne : store.users ≠ [] := List.length_pos_iff.mp hlength
      exact .inl ⟨.inr ⟨rfl, hne, fun h => absurd h hne⟩, fun h => hne h.empty⟩
    · next hlength =>
      have hempty : store.users = [] := List.length_eq_zero_iff.mp (Nat.eq_zero_of_not_pos hlength)
      split
      · next hconfig =>
        refine .inl ⟨.inl ⟨⟨_, rfl⟩, rfl⟩, fun h => ?_⟩
        exact hconfig.elim h.configured.1 h.configured.2
      · next hconfig =>
        rw [not_or] at hconfig
        cases hhash : env.generateFromPassword password with
        | error e =>
          refine .inl ⟨.inl ⟨⟨e, rfl⟩, rfl⟩, fun h => ?_⟩
          obtain ⟨hash, hok⟩ := h.hashed
          cases hhash.symm.trans hok
        | ok hash => exact .inr ⟨hcount, hempty, hconfig, hash, hhash⟩

/-- What a call does that reaches the transaction. -/
theorem bootstrapAdminIfEmpty_of_reaches (h : ReachesTransaction env store username password) :
    ∃ hash, bootstrapAdminIfEmpty env store username password =
      ((transaction (createAdmin env (trimSpace username) hash) store).1, .ok ()) := by
  obtain ⟨hash, hhash⟩ := h.hashed
  have hlength : ¬ store.users.length > 0 := by simp [h.empty]
  refine ⟨hash, ?_⟩
  unfold bootstrapAdminIfEmpty
  simp only [h.count, if_neg hlength, if_neg (not_or.mpr h.configured), hhash]

/-- **When the bootstrap of the administrator is honest.** For all tables and every failure: a call
either returns an error and changes nothing, or returns none and leaves an administrator where
there was no account, if and only if it does not reach the transaction or the four rows can be
inserted. -/
theorem bootstrap_honest_iff (env : BootstrapEnv) (store : AuthStore) (username password : String) :
    HonestBootstrap store (bootstrapAdminIfEmpty env store username password) ↔
      ¬ ReachesTransaction env store username password ∨
        Insertable env store (trimSpace username) := by
  rcases honest_or_reaches env store username password with ⟨hhonest, hnot⟩ | hreaches
  · exact iff_of_true hhonest (.inl hnot)
  · rw [or_iff_right (not_not.mpr hreaches)]
    obtain ⟨hash, heq⟩ := bootstrapAdminIfEmpty_of_reaches hreaches
    rw [heq, transaction]
    constructor
    · intro hhonest
      cases hcreate : createAdmin env (trimSpace username) hash store with
      | ok store' => exact (createAdmin_ok_iff.mp hcreate).1
      | error e =>
        -- nothing has been inserted, and no error is returned
        rw [hcreate] at hhonest
        rcases hhonest with ⟨⟨e, herror⟩, -⟩ | ⟨-, hne, -⟩
        · cases herror
        · exact absurd hreaches.empty hne
    · intro hinsertable
      have hnodup :
          ((store.users ++ [env.adminUser (trimSpace username) hash]).map (·.id)).Nodup := by
        rw [hreaches.empty]
        exact List.nodup_singleton _
      obtain ⟨store', hcreate⟩ : ∃ store', createAdmin env (trimSpace username) hash store =
          .ok store' :=
        ⟨⟨_, _, _, _, hnodup⟩, createAdmin_ok_iff.mpr ⟨hinsertable, rfl, rfl, rfl, rfl⟩⟩
      rw [hcreate]
      exact honest_of_createAdmin hreaches.empty hcreate

/-- **The administrator of new tables gets no token**: the tenant and the team that are made for it
have no id, and a token needs both. -/
theorem login_of_bootstrapped (service : AuthService) (reads : AuthReads) {store' : AuthStore}
    (hnew : store.memberships = []) (h : createAdmin env username hash store = .ok store')
    (name pw tenantId teamId : String) (r : LoginResult) :
    service.login store' reads name pw tenantId teamId ≠ .ok r := by
  obtain ⟨-, -, -, -, hmemberships⟩ := createAdmin_ok_iff.mp h
  intro hlogin
  have hissued : ∃ user, service.issueFor store' reads user tenantId teamId = .ok r := by
    unfold AuthService.login at hlogin
    split at hlogin
    · cases hlogin
    split at hlogin
    · cases hlogin
    next user _ =>
    split at hlogin
    · cases hlogin
    split at hlogin
    · cases hlogin
    exact ⟨user, hlogin⟩
  obtain ⟨user, hissued⟩ := hissued
  obtain ⟨-, -, scope, hscope, htenant, -⟩ := (issueFor_ok hissued).1
  obtain ⟨m, hm, -, hid, -⟩ := mem_listActiveMemberships (mem_of_selectMembership hscope)
  rw [hmemberships, hnew, List.nil_append] at hm
  obtain rfl := List.mem_singleton.mp hm
  exact htenant hid.symm

end Bootstrap

/-- Tables without rows. -/
def noRows : AuthStore := ⟨[], [], [], [], List.nodup_nil⟩

/-- The insert of the membership runs into a time limit. -/
def lockedMemberships : BootstrapEnv where
  generateFromPassword password := .ok password
  same a b := a = b
  userId := 1
  membershipId := 1
  membership := some "Error 1205: Lock wait timeout exceeded"

/-- **The error is swallowed**: there is no account afterwards, and no error is returned. -/
theorem bootstrap_swallows_error :
    ¬ HonestBootstrap noRows (bootstrapAdminIfEmpty lockedMemberships noRows "admin" "pw") := by
  rintro (⟨⟨e, he⟩, -⟩ | ⟨-, hne, -⟩)
  · cases he
  · exact hne rfl

end MonitorSystem
