import MonitorSystem.Gateway.AuthService

/-!
# Access tokens on their way

The tokens that the gateway signs (`api_gateway/internal/auth/token.go`) and that both the
gateway and the agent read (`agent_service/internal/auth/token.go`), and the header in which
they travel (`middleware.go` of both). The gateway insists on claims that are not empty, the
agent does not, so that the agent accepts whatever the gateway accepts, with the same claims
(`agentParse_of_parse`).

The signatures are those of a library, `Jwt`; what is relied on is that it reads a token back
as what was signed, and not after it has expired (`Jwt.Verifies`).
-/

namespace MonitorSystem

/-- The payload of a token: `tokenClaims` with its registered claims, times in seconds. -/
structure JwtClaims where
  userId : ℤ
  username : String
  role : String
  tenantId : String
  teamId : String
  subject : String
  issuedAt : ℤ
  expiresAt : ℤ
  deriving DecidableEq, Repr

/-- **The library**, for the method HS256: `SignedString`, and `ParseWithClaims` at some
time. -/
structure Jwt where
  signedString : String → JwtClaims → String
  parseWithClaims : String → ℤ → String → Option JwtClaims

/-- A nanosecond is the unit of time. -/
def second : ℤ := 1000000000

/-- **What is relied on**: a token that was signed is read back as what was signed, and only
until it expires. -/
structure Jwt.Verifies (jwt : Jwt) : Prop where
  of_parse : ∀ {secret now claims c},
    jwt.parseWithClaims secret now (jwt.signedString secret claims) = some c →
      c = claims ∧ now < claims.expiresAt * second

/-- The role that a text stands for. -/
def AccountRole.ofText : String → AccountRole
  | "admin" => .admin
  | "user" => .user
  | name => .other name

theorem AccountRole.text_ofText (name : String) : (AccountRole.ofText name).text = name := by
  unfold ofText
  split <;> rfl

/-- `Claims`, as they are taken from a payload. -/
def JwtClaims.claims (c : JwtClaims) : TokenClaims where
  userId := c.userId
  username := c.username
  role := .ofText c.role
  tenantId := c.tenantId
  teamId := c.teamId

/-- `NewNumericDate`: whole seconds. -/
def numericDate (time : ℤ) : ℤ := time / second

/-- The payload that `Generate` signs at some time. -/
def TokenClaims.payload (c : TokenClaims) (ttl now : ℤ) : JwtClaims where
  userId := c.userId
  username := c.username
  role := c.role.text
  tenantId := c.tenantId
  teamId := c.teamId
  subject := c.username
  issuedAt := numericDate now
  expiresAt := numericDate (now + ttl)

/-- The account that claims name: its id, its name and its role as a text. -/
def TokenClaims.account (c : TokenClaims) : ℤ × String × String :=
  (c.userId, c.username, c.role.text)

@[simp] theorem TokenClaims.account_claims_payload (c : TokenClaims) (ttl now : ℤ) :
    (c.payload ttl now).claims.account = c.account := by
  simp only [account, payload, JwtClaims.claims, AccountRole.text_ofText]

/-! ### Reading a token -/

section Parse

variable (jwt : Jwt) (secret : String) (now : ℤ) (rawToken : String)

/-- `Parse` of the gateway. -/
def parse : Option TokenClaims :=
  if secret = "" then none
  else
    (jwt.parseWithClaims secret now rawToken).bind fun c =>
      if c.userId = 0 ∨ c.username = "" ∨ c.role = "" ∨ c.tenantId = "" ∨ c.teamId = "" then none
      else some c.claims

/-- `Parse` of the agent. -/
def agentParse : Option TokenClaims :=
  if secret = "" then none else (jwt.parseWithClaims secret now rawToken).map JwtClaims.claims

variable {jwt secret now rawToken}

/-- What the gateway reads, with the claims that it has checked. -/
theorem parse_eq_some {claims : TokenClaims} (h : parse jwt secret now rawToken = some claims) :
    ∃ c, jwt.parseWithClaims secret now rawToken = some c ∧ claims = c.claims ∧
      c.tenantId ≠ "" ∧ c.teamId ≠ "" := by
  unfold parse at h
  split at h
  · cases h
  · obtain ⟨c, hc, hclaims⟩ := Option.bind_eq_some_iff.mp h
    split at hclaims
    · cases hclaims
    · next hne =>
      simp only [not_or] at hne
      exact ⟨c, hc, (Option.some.inj hclaims).symm, hne.2.2.2⟩

/-- **The agent accepts what the gateway accepts**, with the same claims. -/
theorem agentParse_of_parse {claims : TokenClaims}
    (h : parse jwt secret now rawToken = some claims) :
    agentParse jwt secret now rawToken = some claims := by
  obtain ⟨c, hc, rfl, -⟩ := parse_eq_some h
  have hsecret : secret ≠ "" := by
    rintro rfl
    cases h
  rw [agentParse, if_neg hsecret, hc, Option.map_some]

theorem agentParse_eq_some {claims : TokenClaims}
    (h : agentParse jwt secret now rawToken = some claims) :
    ∃ c, jwt.parseWithClaims secret now rawToken = some c ∧ claims = c.claims := by
  unfold agentParse at h
  split at h
  · cases h
  · obtain ⟨c, hc, hclaims⟩ := Option.map_eq_some_iff.mp h
    exact ⟨c, hc, hclaims.symm⟩

end Parse

/-- A token that is read says what was signed, and has not expired. -/
theorem Jwt.Verifies.lt_of_parse {jwt : Jwt} (hjwt : jwt.Verifies) {secret : String}
    {claims : TokenClaims} {ttl time now : ℤ} {c : JwtClaims}
    (h : jwt.parseWithClaims secret now (jwt.signedString secret (claims.payload ttl time)) =
      some c) :
    c = claims.payload ttl time ∧ now < time + ttl := by
  obtain ⟨hc, hlt⟩ := hjwt.of_parse h
  have hle : numericDate (time + ttl) * second ≤ time + ttl := Int.ediv_mul_le _ (by decide)
  exact ⟨hc, Int.lt_of_lt_of_le hlt hle⟩

/-! ### The header -/

/-- **The token of a header** `Authorization`, as both services take it. -/
def bearerToken (header : String) : Except String String :=
  let header := trimSpace header
  if header = "" then .error "未登录或登录已过期"
  else
    let token := trimSpace (trimPrefix header "Bearer ")
    if token = header ∨ token = "" then .error "Authorization 必须使用 Bearer token"
    else .ok token

/-- The header that a client sends with its token. -/
def bearerHeader (token : String) : String := "Bearer " ++ token

/-- The token of a header is not empty, and has no space at its ends. -/
theorem bearerToken_ok {header token : String} (h : bearerToken header = .ok token) :
    TrimmedText token ∧ token ≠ "" := by
  unfold bearerToken at h
  dsimp only at h
  split at h
  · cases h
  · split at h
    · cases h
    · next hne =>
      obtain rfl := Except.ok.inj h
      exact ⟨trimmedText_trimSpace _, (not_or.mp hne).2⟩

theorem toList_bearerHeader (token : String) :
    (bearerHeader token).toList = "Bearer ".toList ++ token.toList :=
  String.toList_append

/-- **A token that was taken from a header arrives when it is sent on.** -/
theorem bearerToken_bearerHeader {token : String} (htrim : TrimmedText token) (hne : token ≠ "") :
    bearerToken (bearerHeader token) = .ok token := by
  have hlist : token.toList ≠ [] := fun h => hne (String.toList_eq_nil_iff.mp h)
  have htrimmed : TrimmedText (bearerHeader token) := by
    refine ⟨fun c hc => ?_, fun c hc => ?_⟩
    · rw [toList_bearerHeader, List.head?_append_of_ne_nil _ (by decide)] at hc
      obtain rfl := Option.some.inj hc
      decide
    · rw [toList_bearerHeader, List.getLast?_append_of_ne_nil _ hlist] at hc
      exact htrim.last c hc
  have hprefix : trimPrefix (bearerHeader token) "Bearer " = token := by
    rw [trimPrefix, toList_bearerHeader, if_pos (List.prefix_append _ _), List.drop_left,
      String.ofList_toList]
  have hheader : bearerHeader token ≠ "" := by
    intro h
    have hnil := congrArg String.toList h
    rw [toList_bearerHeader] at hnil
    cases hnil
  have hlonger : token ≠ bearerHeader token := by
    intro h
    have hlength := congrArg (List.length ∘ String.toList) h
    simp only [Function.comp_apply, toList_bearerHeader, List.length_append] at hlength
    have hseven : "Bearer ".toList.length = 7 := rfl
    omega
  rw [bearerToken]
  dsimp only
  rw [trimSpace_of_trimmedText htrimmed, if_neg hheader, hprefix, trimSpace_of_trimmedText htrim,
    if_neg (not_or.mpr ⟨hlonger, hne⟩)]

end MonitorSystem
