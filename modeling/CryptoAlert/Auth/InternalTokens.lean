import CryptoAlert.Auth.AgentPermissions
import CryptoAlert.Commands.Digests
import CryptoAlert.Lib.Integers

/-!
# Internal tokens

The services of the product identify themselves and their users to each other by signed tokens of
a short lifetime. A token is for one audience, and what it may claim depends on its use. The
signatures and the checks of the registered claims belong to the token library, a parameter.
-/

namespace CryptoAlert

inductive ClaimValue where
  | null
  | text (s : List Char)
  | int (n : ℤ)
  | texts (l : List (List Char))
  | other (tag : ℕ)
deriving DecidableEq

/-- The claims of a token, by their names. -/
abbrev Claims := List (String × ClaimValue)

def ClaimValue.asText : ClaimValue → Option (List Char)
  | text s => some s
  | _ => none

structure TokenHeader where
  alg : Option (List Char)
  kid : Option (List Char)

def rs256 : List Char := "RS256".toList

/-- `COMMON_REQUIRED_CLAIMS`. -/
def commonRequiredClaims : List String := ["iss", "aud", "sub", "token_use", "jti", "iat", "exp"]

/-- What a verifier expects of the registered claims. -/
structure DecodeOptions where
  issuer : List Char
  audience : List Char
  leewaySeconds : ℤ

/-- The claims are those of the issuer for the audience, issued and expiring at the given times. -/
structure Registered (issuer audience : List Char) (issuedAt expiresAt : ℤ) (c : Claims) :
    Prop where
  iss : c.lookup "iss" = some (.text issuer)
  aud : c.lookup "aud" = some (.text audience)
  iat : c.lookup "iat" = some (.int issuedAt)
  exp : c.lookup "exp" = some (.int expiresAt)
  present : ∀ name ∈ ["sub", "token_use", "jti"], ∃ s, c.lookup name = some (.text s)

/-- The token library: `encode`, `get_unverified_header` and `decode`, which returns nothing where
it raises. -/
structure JwtLibrary where
  PrivateKey : Type
  PublicKey : Type
  /-- The two keys belong together. -/
  Pair : PrivateKey → PublicKey → Prop
  encode : Claims → PrivateKey → List Char → List Char
  header : List Char → Option TokenHeader
  decode : List Char → PublicKey → DecodeOptions → ℤ → Option Claims
  /-- `int(value)`. -/
  intOf : ClaimValue → Option ℤ
  intOf_int : ∀ n, intOf (.int n) = some n
  encode_ne_nil : ∀ c k kid, encode c k kid ≠ []
  encode_spaceless : ∀ c k kid, ∀ ch ∈ encode c k kid, Text.isSpace ch = false
  header_encode : ∀ c k kid, header (encode c k kid) = some ⟨some rs256, some kid⟩
  /-- A signed token is decoded from the time it was issued until it expires, give or take the
  leeway. -/
  decode_encode : ∀ c k p kid o now issuedAt expiresAt, Pair k p →
    Registered o.issuer o.audience issuedAt expiresAt c →
    decode (encode c k kid) p o now =
      if issuedAt ≤ now + o.leewaySeconds ∧ now - o.leewaySeconds < expiresAt then some c else none
  /-- What is decoded has the required claims and is in its time. -/
  decode_claims : ∀ t p o now c, decode t p o now = some c →
    (∀ name ∈ commonRequiredClaims, ∃ v, c.lookup name = some v ∧ v ≠ .null) ∧
    ∃ issuedAt expiresAt, (c.lookup "iat").bind intOf = some issuedAt ∧
      (c.lookup "exp").bind intOf = some expiresAt ∧
      issuedAt ≤ now + o.leewaySeconds ∧ now - o.leewaySeconds < expiresAt

/-- `IDENTITY_DISCOVERY_AUDIENCE`. -/
def identityDiscoveryAudience : List Char := "crypto-alert-identity-discovery".toList

/-- `TOKEN_USES`. -/
inductive TokenUse where
  | identityDiscovery | user | worker | healthcheck
deriving DecidableEq, Repr

namespace TokenUse

def name : TokenUse → List Char
  | identityDiscovery => "identity_discovery".toList
  | user => "user".toList
  | worker => "worker".toList
  | healthcheck => "healthcheck".toList

def ofName (s : List Char) : Option TokenUse :=
  [identityDiscovery, user, worker, healthcheck].find? fun use => use.name = s

theorem ofName_name (use : TokenUse) : ofName use.name = some use := by
  cases use <;> decide

def isPersonal : TokenUse → Bool
  | identityDiscovery | user => true
  | worker | healthcheck => false

end TokenUse

/-- `_AUTHORITY_CLAIMS`. -/
def authorityClaims : List String := ["tenant_id", "workspace_id", "roles", "permissions"]

/-- `_required`. -/
def requiredClaim (value : List Char) : Option (List Char) :=
  if Text.stripText value = [] then none else some (Text.stripText value)

/-- `_valid_strings`, for a list of texts. -/
def validStrings (values : List (List Char)) (allowEmpty : Bool) : Bool :=
  (allowEmpty || !values.isEmpty) && values.all fun s => !Text.isBlank s

section Issuing

variable (lib : JwtLibrary)

/-- `InternalTokenIssuer`, as its constructor leaves it. -/
structure TokenIssuer where
  privateKey : lib.PrivateKey
  keyId : List Char
  issuer : List Char
  audience : List Char
  ttlSeconds : ℤ
  complete : ∀ s ∈ [keyId, issuer, audience], Text.isBlank s = false
  lifetime : 1 ≤ ttlSeconds ∧ ttlSeconds ≤ 60

end Issuing

/-- What a token is asked for. -/
inductive TokenOrder where
  | identity (issuer subject : List Char)
  | scopedUser (issuer subject : List Char) (contextId : Uuid)
  | service (tokenUse : TokenUse) (subject tenantId workspaceId : List Char)
      (roles permissions : List (List Char)) (identityIssuer : List Char)
      (contextId : Option Uuid)

namespace TokenOrder

def tokenUse : TokenOrder → TokenUse
  | identity _ _ => .identityDiscovery
  | scopedUser _ _ _ => .user
  | service tokenUse _ _ _ _ _ _ _ => tokenUse

def subject : TokenOrder → List Char
  | identity _ subject => subject
  | scopedUser _ subject _ => subject
  | service _ subject _ _ _ _ _ _ => subject

def contextClaim (contextId : Option Uuid) : Claims :=
  contextId.toList.map fun contextId => ("context_id", .text contextId.text)

/-- The claims that `issue_identity`, `issue_scoped` and `issue` hand to `_encode`. -/
def claims (audience : List Char) : TokenOrder → Option Claims
  | identity issuer _ => do
      guard (audience = identityDiscoveryAudience)
      let issuer ← requiredClaim issuer
      some [("identity_issuer", .text issuer)]
  | scopedUser issuer _ contextId => do
      let issuer ← requiredClaim issuer
      some [("identity_issuer", .text issuer), ("context_id", .text contextId.text)]
  | service tokenUse _ tenantId workspaceId roles permissions identityIssuer contextId => do
      guard (tokenUse.isPersonal = false)
      guard (Text.isBlank tenantId = false ∧ Text.isBlank workspaceId = false)
      guard (validStrings roles false = true ∧ validStrings permissions true = true)
      let identityIssuer ← requiredClaim identityIssuer
      some ([("tenant_id", .text tenantId), ("workspace_id", .text workspaceId),
        ("roles", .texts roles), ("permissions", .texts permissions),
        ("identity_issuer", .text identityIssuer)] ++ contextClaim contextId)

end TokenOrder

/-- `_encode`, up to the signature; `jti` is the fresh identifier and `now` the clock. -/
def TokenIssuer.encodeClaims {lib : JwtLibrary} (i : TokenIssuer lib) (order : TokenOrder)
    (jti : Uuid) (now : ℤ) : Option Claims := do
  let claims ← order.claims i.audience
  let subject ← requiredClaim order.subject
  some ([("iss", .text i.issuer), ("aud", .text i.audience), ("sub", .text subject),
    ("token_use", .text order.tokenUse.name)] ++ claims ++
    [("jti", .text (jti.text.filter (· != '-'))), ("iat", .int now),
      ("exp", .int (now + i.ttlSeconds))])

/-- A token; `none` where an exception escapes. -/
def TokenIssuer.issue {lib : JwtLibrary} (i : TokenIssuer lib) (order : TokenOrder) (jti : Uuid)
    (now : ℤ) : Option (List Char) := do
  let claims ← i.encodeClaims order jti now
  some (lib.encode claims i.privateKey i.keyId)

section Verifying

variable (lib : JwtLibrary)

/-- `InternalTokenVerifier`. -/
structure TokenVerifier where
  publicKeys : List Char → Option lib.PublicKey
  issuer : List Char
  audience : List Char
  maxTtlSeconds : ℤ
  leewaySeconds : ℤ
  lifetime : 1 ≤ maxTtlSeconds ∧ maxTtlSeconds ≤ 60

end Verifying

/-- `_claim_string`. -/
def claimString (c : Claims) (name : String) : Option (List Char) := do
  let value ← c.lookup name
  let s ← value.asText
  if Text.isBlank s then none else some s

def claimContext (c : Claims) : Option Uuid := do
  let text ← claimString c "context_id"
  Uuid.ofText text

/-- A list of texts that are not blank. -/
def claimStrings (c : Claims) (name : String) (allowEmpty : Bool) : Option (List (List Char)) :=
  match c.lookup name with
  | some (.texts l) => if validStrings l allowEmpty then some l else none
  | _ => none

/-- `_validate_token_contract`. -/
def validateTokenContract (audience : List Char) (c : Claims) (use : TokenUse) : Option Unit :=
  if use.isPersonal then do
    guard (authorityClaims.all fun name => (c.lookup name).isNone)
    let _ ← claimString c "identity_issuer"
    if use = .identityDiscovery then
      guard (audience = identityDiscoveryAudience)
      guard ((c.lookup "context_id").isNone = true)
    else
      guard (audience ≠ identityDiscoveryAudience)
      let _ ← claimContext c
      some ()
  else do
    let _ ← claimString c "tenant_id"
    let _ ← claimString c "workspace_id"
    let _ ← claimStrings c "roles" false
    let _ ← claimStrings c "permissions" true
    let _ ← claimString c "identity_issuer"
    if (c.lookup "context_id").isSome then
      let _ ← claimContext c
      some ()
    else some ()

namespace TokenVerifier

variable {lib : JwtLibrary} (v : TokenVerifier lib)

def options : DecodeOptions := ⟨v.issuer, v.audience, v.leewaySeconds⟩

/-- `verify`; `none` where it raises. -/
def verify (now : ℤ) (token : List Char) : Option Claims := do
  let header ← lib.header token
  guard (header.alg = some rs256)
  let kid ← header.kid
  guard (kid ≠ [])
  let key ← v.publicKeys kid
  let c ← lib.decode token key v.options now
  let issuedAt ← (c.lookup "iat").bind lib.intOf
  let expiresAt ← (c.lookup "exp").bind lib.intOf
  guard (expiresAt - issuedAt ≤ v.maxTtlSeconds)
  let _ ← claimString c "sub"
  let _ ← claimString c "jti"
  let use ← (c.lookup "token_use").bind ClaimValue.asText
  let use ← TokenUse.ofName use
  validateTokenContract v.audience c use
  some c

def bearer : List Char := "Bearer ".toList

/-- `verify_authorization`. -/
def verifyAuthorization (now : ℤ) (authorization : List Char) : Option Claims := do
  guard (bearer <+: authorization)
  let token := Text.stripText (authorization.drop bearer.length)
  guard (token ≠ [])
  v.verify now token

end TokenVerifier

/-- What `authenticate` makes of the claims of a token. -/
inductive TokenReading where
  | accepted (token : AgentToken)
  /-- The token is refused with a response of its own. -/
  | forbidden
  /-- A claim is missing or has another type. -/
  | raised

def readUser (c : Claims) : Option AgentToken := do
  let issuer ← (c.lookup "identity_issuer").bind ClaimValue.asText
  let issuer ← filled issuer
  let subject ← (c.lookup "sub").bind ClaimValue.asText
  let subject ← filled subject
  let contextId ← (c.lookup "context_id").bind ClaimValue.asText
  let contextId ← Uuid.ofText contextId
  some (.user issuer subject contextId)

def readService (c : Claims) : Option AgentToken := do
  let tenantId ← (c.lookup "tenant_id").bind ClaimValue.asText
  let tenantId ← filled tenantId
  let workspaceId ← (c.lookup "workspace_id").bind ClaimValue.asText
  let workspaceId ← filled workspaceId
  let issuer ← (c.lookup "identity_issuer").bind ClaimValue.asText
  let issuer ← filled issuer
  let subject ← (c.lookup "sub").bind ClaimValue.asText
  let subject ← filled subject
  let permissions ← match c.lookup "permissions" with
    | none => some []
    | some (.texts l) => some l
    | some _ => none
  match (c.lookup "context_id").filter (· ≠ .null) with
  | none => some (.service tenantId workspaceId issuer subject permissions none)
  | some value => do
      let contextId ← value.asText
      let contextId ← Uuid.ofText contextId
      some (.service tenantId workspaceId issuer subject permissions (some contextId))

def TokenReading.ofOption (token : Option AgentToken) : TokenReading :=
  token.elim .raised .accepted

def readToken (c : Claims) : TokenReading :=
  match (c.lookup "token_use").bind ClaimValue.asText with
  | some use =>
      if use = TokenUse.user.name then .ofOption (readUser c)
      else if use = TokenUse.identityDiscovery.name then .forbidden
      else .ofOption (readService c)
  | none => .raised

section Contract

variable {lib : JwtLibrary} {v : TokenVerifier lib} {i : TokenIssuer lib} {c : Claims}
  {audience token : List Char} {now : ℤ} {order : TokenOrder} {jti : Uuid}

theorem filled_of_claimString {name : String} {s : List Char} (h : claimString c name = some s) :
    (c.lookup name).bind ClaimValue.asText = some s ∧ ∃ hs, filled s = some ⟨s, hs⟩ := by
  obtain ⟨value, hvalue, h⟩ := Option.bind_eq_some_iff.mp h
  obtain ⟨text, htext, h⟩ := Option.bind_eq_some_iff.mp h
  split_ifs at h with hblank
  cases h
  have hs : s ≠ [] := by
    rintro rfl
    exact hblank rfl
  exact ⟨by rw [hvalue]; exact htext, hs, dif_pos hs⟩

theorem context_of_claimContext {contextId : Uuid} (h : claimContext c = some contextId) :
    ∃ text, (c.lookup "context_id").bind ClaimValue.asText = some text ∧
      Uuid.ofText text = some contextId := by
  obtain ⟨text, htext, h⟩ := Option.bind_eq_some_iff.mp h
  exact ⟨text, (filled_of_claimString htext).1, h⟩

/-- A personal token within its contract carries no authority of its own. -/
structure PersonalClaims (audience : List Char) (use : TokenUse) (c : Claims) : Prop where
  powerless : ∀ name ∈ authorityClaims, c.lookup name = none
  issuer : ∃ s, claimString c "identity_issuer" = some s
  discovery : use = .identityDiscovery ↔ audience = identityDiscoveryAudience
  context : use = .user → ∃ contextId, claimContext c = some contextId

/-- A service token within its contract carries a whole scope. -/
structure ServiceClaims (c : Claims) : Prop where
  tenantId : ∃ s, claimString c "tenant_id" = some s
  workspaceId : ∃ s, claimString c "workspace_id" = some s
  roles : ∃ l, claimStrings c "roles" false = some l
  permissions : ∃ l, claimStrings c "permissions" true = some l
  issuer : ∃ s, claimString c "identity_issuer" = some s
  context : (c.lookup "context_id").isSome → ∃ contextId, claimContext c = some contextId

theorem personal_of_contract {use : TokenUse} (huse : use.isPersonal = true)
    (h : validateTokenContract audience c use = some ()) : PersonalClaims audience use c := by
  rw [validateTokenContract, if_pos huse] at h
  obtain ⟨_, hpowerless, h⟩ := Option.bind_eq_some_iff.mp h
  obtain ⟨issuer, hissuer, h⟩ := Option.bind_eq_some_iff.mp h
  have hnone : ∀ name ∈ authorityClaims, c.lookup name = none := by
    intro name hname
    have hall := List.all_eq_true.mp ((Option.guard_eq_some' _).mp hpowerless) name hname
    exact Option.isNone_iff_eq_none.mp hall
  by_cases hdiscovery : use = .identityDiscovery
  · rw [if_pos hdiscovery] at h
    obtain ⟨_, haudience, -⟩ := Option.bind_eq_some_iff.mp h
    have haudience := (Option.guard_eq_some' _).mp haudience
    exact ⟨hnone, ⟨issuer, hissuer⟩, iff_of_true hdiscovery haudience,
      fun huser => by rw [huser] at hdiscovery; cases hdiscovery⟩
  · rw [if_neg hdiscovery] at h
    obtain ⟨_, haudience, h⟩ := Option.bind_eq_some_iff.mp h
    obtain ⟨contextId, hcontext, -⟩ := Option.bind_eq_some_iff.mp h
    have haudience := (Option.guard_eq_some' _).mp haudience
    exact ⟨hnone, ⟨issuer, hissuer⟩, iff_of_false hdiscovery haudience,
      fun _ => ⟨contextId, hcontext⟩⟩

theorem service_of_contract {use : TokenUse} (huse : use.isPersonal = false)
    (h : validateTokenContract audience c use = some ()) : ServiceClaims c := by
  have hnot : ¬ use.isPersonal = true := by rw [huse]; decide
  rw [validateTokenContract, if_neg hnot] at h
  obtain ⟨tenantId, htenant, h⟩ := Option.bind_eq_some_iff.mp h
  obtain ⟨workspaceId, hworkspace, h⟩ := Option.bind_eq_some_iff.mp h
  obtain ⟨roles, hroles, h⟩ := Option.bind_eq_some_iff.mp h
  obtain ⟨permissions, hpermissions, h⟩ := Option.bind_eq_some_iff.mp h
  obtain ⟨issuer, hissuer, h⟩ := Option.bind_eq_some_iff.mp h
  refine ⟨⟨tenantId, htenant⟩, ⟨workspaceId, hworkspace⟩, ⟨roles, hroles⟩,
    ⟨permissions, hpermissions⟩, ⟨issuer, hissuer⟩, fun hpresent => ?_⟩
  rw [if_pos hpresent] at h
  obtain ⟨contextId, hcontext, -⟩ := Option.bind_eq_some_iff.mp h
  exact ⟨contextId, hcontext⟩

theorem readUser_isSome {subject : List Char} (h : PersonalClaims audience .user c)
    (hsubject : claimString c "sub" = some subject) : (readUser c).isSome := by
  obtain ⟨issuer, hissuer⟩ := h.issuer
  obtain ⟨contextId, hcontext⟩ := h.context rfl
  obtain ⟨hissuer, _, hfilled⟩ := filled_of_claimString hissuer
  obtain ⟨hsubject, _, hfilled'⟩ := filled_of_claimString hsubject
  obtain ⟨text, htext, hcontext⟩ := context_of_claimContext hcontext
  simp only [readUser, hissuer, hfilled, hsubject, hfilled', htext, hcontext,
    Option.bind_eq_bind, Option.bind_some, Option.isSome_some]

theorem readService_isSome {subject : List Char} (h : ServiceClaims c)
    (hsubject : claimString c "sub" = some subject) : (readService c).isSome := by
  obtain ⟨tenantId, htenant⟩ := h.tenantId
  obtain ⟨workspaceId, hworkspace⟩ := h.workspaceId
  obtain ⟨issuer, hissuer⟩ := h.issuer
  obtain ⟨permissions, hpermissions⟩ := h.permissions
  obtain ⟨htenant, _, hfilled₁⟩ := filled_of_claimString htenant
  obtain ⟨hworkspace, _, hfilled₂⟩ := filled_of_claimString hworkspace
  obtain ⟨hissuer, _, hfilled₃⟩ := filled_of_claimString hissuer
  obtain ⟨hsubject, _, hfilled₄⟩ := filled_of_claimString hsubject
  have hlist : c.lookup "permissions" = some (.texts permissions) := by
    unfold claimStrings at hpermissions
    split at hpermissions
    · rename_i l hl
      split_ifs at hpermissions
      rw [hl, Option.some.inj hpermissions]
    · cases hpermissions
  simp only [readService, htenant, hfilled₁, hworkspace, hfilled₂, hissuer, hfilled₃, hsubject,
    hfilled₄, hlist, Option.bind_eq_bind, Option.bind_some]
  cases hvalue : c.lookup "context_id" with
  | none => rfl
  | some value =>
      obtain ⟨contextId, hcontext⟩ := h.context (by rw [hvalue]; rfl)
      obtain ⟨text, htext, hcontext⟩ := context_of_claimContext hcontext
      rw [hvalue] at htext
      have hnull : value ≠ .null := by
        rintro rfl
        cases htext
      have hkept : (some value).filter (fun v => decide (v ≠ .null)) = some value := by
        rw [Option.filter_some, if_pos (decide_eq_true hnull)]
      have hasText : value.asText = some text := htext
      rw [hkept]
      simp only [hasText, hcontext, Option.bind_some, Option.isSome_some]

/-- What a token that is verified went through. -/
theorem TokenVerifier.verify_cases (h : v.verify now token = some c) :
    ∃ key use issuedAt expiresAt subject,
      lib.decode token key v.options now = some c ∧
      (c.lookup "token_use").bind ClaimValue.asText = some use.name ∧
      (c.lookup "iat").bind lib.intOf = some issuedAt ∧
      (c.lookup "exp").bind lib.intOf = some expiresAt ∧ expiresAt - issuedAt ≤ v.maxTtlSeconds ∧
      claimString c "sub" = some subject ∧ validateTokenContract v.audience c use = some () := by
  simp only [TokenVerifier.verify, Option.bind_eq_bind, Option.bind_eq_some_iff] at h
  obtain ⟨header, -, _, -, kid, -, _, -, key, -, claims, hdecode, issuedAt, hissued, expiresAt,
    hexpires, _, hlifetime, subject, hsubject, _, -, name, hname, use, huse, _, hcontract, h⟩ := h
  cases h
  have hlifetime := (Option.guard_eq_some' _).mp hlifetime
  have hsame : use.name = name := by
    have hfound := List.find?_some huse
    exact of_decide_eq_true hfound
  rw [← hsame] at hname
  exact ⟨key, use, issuedAt, expiresAt, subject, hdecode, Option.bind_eq_some_iff.mpr hname,
    Option.bind_eq_some_iff.mpr hissued, Option.bind_eq_some_iff.mpr hexpires, hlifetime,
    hsubject, hcontract⟩

/-- Whatever token is presented, what a verifier lets through lives for no more than a minute and
is in its time. A personal token carries no authority, and it discovers identities exactly where
the audience is the one of identity discovery; a service token carries a whole scope. No claim that
`authenticate` goes on to read is missing or of another type. -/
theorem verified_tokens_confined (h : v.verify now token = some c) :
    (∃ issuedAt expiresAt, (c.lookup "iat").bind lib.intOf = some issuedAt ∧
      (c.lookup "exp").bind lib.intOf = some expiresAt ∧ expiresAt ≤ issuedAt + 60 ∧
      issuedAt ≤ now + v.leewaySeconds ∧ now - v.leewaySeconds < expiresAt) ∧
    (∃ use : TokenUse, (c.lookup "token_use").bind ClaimValue.asText = some use.name ∧
      if use.isPersonal then PersonalClaims v.audience use c else ServiceClaims c) ∧
    readToken c ≠ .raised := by
  obtain ⟨key, use, issuedAt, expiresAt, subject, hdecode, huse, hissued, hexpires, hlifetime,
    hsubject, hcontract⟩ := v.verify_cases h
  obtain ⟨-, issuedAt', expiresAt', hissued', hexpires', hfrom, huntil⟩ :=
    lib.decode_claims _ _ _ _ _ hdecode
  rw [hissued, Option.some.injEq] at hissued'
  rw [hexpires, Option.some.injEq] at hexpires'
  subst hissued' hexpires'
  have hminute := v.lifetime.2
  refine ⟨⟨issuedAt, expiresAt, hissued, hexpires, by omega, hfrom, huntil⟩, ⟨use, huse, ?_⟩, ?_⟩
  · cases hpersonal : use.isPersonal with
    | true =>
        rw [if_pos rfl]
        exact personal_of_contract hpersonal hcontract
    | false =>
        rw [if_neg (by decide)]
        exact service_of_contract hpersonal hcontract
  · rw [readToken, huse]
    cases use with
    | user =>
        have hread := readUser_isSome (personal_of_contract rfl hcontract) hsubject
        obtain ⟨token, htoken⟩ := Option.isSome_iff_exists.mp hread
        dsimp only
        rw [if_pos rfl, htoken]
        intro hraised
        cases hraised
    | identityDiscovery =>
        dsimp only
        rw [if_neg (by decide), if_pos rfl]
        intro hraised
        cases hraised
    | worker | healthcheck =>
        have hread := readService_isSome (service_of_contract rfl hcontract) hsubject
        obtain ⟨token, htoken⟩ := Option.isSome_iff_exists.mp hread
        dsimp only
        rw [if_neg (by decide), if_neg (by decide), htoken]
        intro hraised
        cases hraised

end Contract

section Texts

theorem isBlank_eq_false {s : List Char} {ch : Char} (hmem : ch ∈ s)
    (hch : Text.isSpace ch = false) : Text.isBlank s = false := by
  rw [Text.isBlank, List.all_eq_false]
  exact ⟨ch, hmem, by rw [hch]; decide⟩

/-- What is left of a required text is not blank. -/
theorem isBlank_of_requiredClaim {value s : List Char} (h : requiredClaim value = some s) :
    Text.isBlank s = false ∧ s = Text.stripText value := by
  unfold requiredClaim at h
  split_ifs at h with hne
  cases h
  have hlast := List.rdropWhile_last_not Text.isSpace _ hne
  exact ⟨isBlank_eq_false (List.getLast_mem hne) (Bool.eq_false_iff.mpr hlast), rfl⟩

theorem exists_digit (u : Uuid) :
    ∃ ch ∈ u.text.filter (· != '-'), Text.isSpace ch = false := by
  have hlength : 0 < (u.text.filter (· != '-')).length := by
    rw [Uuid.filter_text, Numerals.length_write]
    omega
  obtain ⟨ch, hmem⟩ := List.exists_mem_of_length_pos hlength
  have hdigit := hmem
  rw [Uuid.filter_text] at hdigit
  obtain ⟨d, hd, rfl⟩ := Numerals.mem_write (by decide) hdigit
  have hall : ∀ k : Fin 16, Text.isSpace (Nat.digitChar k.val) = false := by decide +kernel
  exact ⟨_, hmem, hall ⟨d, hd⟩⟩

theorem isBlank_hex (u : Uuid) : Text.isBlank (u.text.filter (· != '-')) = false := by
  obtain ⟨ch, hmem, hch⟩ := exists_digit u
  exact isBlank_eq_false hmem hch

theorem isBlank_text (u : Uuid) : Text.isBlank u.text = false := by
  obtain ⟨ch, hmem, hch⟩ := exists_digit u
  exact isBlank_eq_false (List.mem_of_mem_filter hmem) hch

/-- A text without white space is its own strip. -/
theorem stripText_of_spaceless {s : List Char} (h : ∀ ch ∈ s, Text.isSpace ch = false) :
    Text.stripText s = s := by
  have hfront : s.dropWhile Text.isSpace = s := by
    cases s with
    | nil => rfl
    | cons ch rest => rw [List.dropWhile_cons, if_neg (by simp [h ch List.mem_cons_self])]
  rw [Text.stripText, hfront, List.rdropWhile_eq_self_iff]
  intro hne
  simp [h _ (List.getLast_mem hne)]

theorem claimString_eq {c : Claims} {name : String} {s : List Char}
    (hlookup : c.lookup name = some (.text s)) (hblank : Text.isBlank s = false) :
    claimString c name = some s := by
  simp [claimString, hlookup, ClaimValue.asText, hblank]

theorem claimStrings_eq {c : Claims} {name : String} {l : List (List Char)} {allowEmpty : Bool}
    (hlookup : c.lookup name = some (.texts l)) (hvalid : validStrings l allowEmpty = true) :
    claimStrings c name allowEmpty = some l := by
  simp only [claimStrings, hlookup, if_pos hvalid]

theorem claimContext_eq {c : Claims} {contextId : Uuid}
    (hlookup : c.lookup "context_id" = some (.text contextId.text)) :
    claimContext c = some contextId := by
  rw [claimContext, claimString_eq hlookup (isBlank_text contextId), Option.bind_eq_bind,
    Option.bind_some, Uuid.ofText_text]

end Texts

namespace TokenOrder

/-- The identity that a token was ordered for. -/
def reading : TokenOrder → TokenReading
  | identity _ _ => .forbidden
  | scopedUser issuer subject contextId => .ofOption <| do
      let issuer ← filled (Text.stripText issuer)
      let subject ← filled (Text.stripText subject)
      some (.user issuer subject contextId)
  | service _ subject tenantId workspaceId _ permissions identityIssuer contextId => .ofOption <| do
      let tenantId ← filled tenantId
      let workspaceId ← filled workspaceId
      let issuer ← filled (Text.stripText identityIssuer)
      let subject ← filled (Text.stripText subject)
      some (.service tenantId workspaceId issuer subject permissions contextId)

end TokenOrder

section Issued

variable {lib : JwtLibrary} {v : TokenVerifier lib} {i : TokenIssuer lib} {c : Claims}
  {now : ℤ} {order : TokenOrder} {jti : Uuid}

/-- What the claims of an issued token look like, of which `cs` are the order's own. -/
structure IssuedClaims (i : TokenIssuer lib) (order : TokenOrder) (jti : Uuid) (now : ℤ)
    (cs c : Claims) : Prop where
  registered : Registered i.issuer i.audience now (now + i.ttlSeconds) c
  tokenUse : c.lookup "token_use" = some (.text order.tokenUse.name)
  subject : c.lookup "sub" = some (.text (Text.stripText order.subject))
  jti : c.lookup "jti" = some (.text (jti.text.filter (· != '-')))
  own : ∀ name ∉ commonRequiredClaims, c.lookup name = cs.lookup name

theorem powerless_all (hnone : ∀ name ∈ authorityClaims, c.lookup name = none) :
    (authorityClaims.all fun name => (c.lookup name).isNone) = true :=
  List.all_eq_true.mpr fun name hname => by rw [hnone name hname]; rfl

theorem contract_identity {s : List Char} (hnone : ∀ name ∈ authorityClaims, c.lookup name = none)
    (hissuer : claimString c "identity_issuer" = some s) (hcontext : c.lookup "context_id" = none) :
    validateTokenContract identityDiscoveryAudience c .identityDiscovery = some () := by
  have hpersonal : TokenUse.isPersonal .identityDiscovery = true := rfl
  rw [validateTokenContract, if_pos hpersonal, powerless_all hnone, hissuer, hcontext]
  rfl

theorem contract_user {audience s : List Char} {contextId : Uuid}
    (hnone : ∀ name ∈ authorityClaims, c.lookup name = none)
    (hissuer : claimString c "identity_issuer" = some s)
    (hcontext : claimContext c = some contextId) :
    validateTokenContract audience c .user =
      if audience = identityDiscoveryAudience then none else some () := by
  have hpersonal : TokenUse.isPersonal .user = true := rfl
  have hother : ¬ TokenUse.user = .identityDiscovery := fun h => by cases h
  rw [validateTokenContract, if_pos hpersonal, if_neg hother, powerless_all hnone, hissuer,
    hcontext]
  split_ifs with haudience
  · simp [guard, haudience]
  · simp [guard, haudience]

theorem contract_service {audience s t w : List Char} {use : TokenUse}
    {roles permissions : List (List Char)}
    (huse : use.isPersonal = false) (htenant : claimString c "tenant_id" = some t)
    (hworkspace : claimString c "workspace_id" = some w)
    (hroles : claimStrings c "roles" false = some roles)
    (hpermissions : claimStrings c "permissions" true = some permissions)
    (hissuer : claimString c "identity_issuer" = some s)
    (hcontext : c.lookup "context_id" = none ∨ ∃ contextId, claimContext c = some contextId) :
    validateTokenContract audience c use = some () := by
  have hservice : ¬ use.isPersonal = true := by rw [huse]; decide
  rw [validateTokenContract, if_neg hservice, htenant, hworkspace, hroles, hpermissions, hissuer]
  rcases hcontext with hnone | ⟨contextId, hcontext⟩
  · rw [hnone]
    rfl
  · rw [hcontext]
    simp

/-- The claims of its own that an order adds leave the later ones alone. -/
theorem TokenOrder.claims_common {audience : List Char} {cs : Claims}
    (h : order.claims audience = some cs) :
    cs.lookup "jti" = none ∧ cs.lookup "iat" = none ∧ cs.lookup "exp" = none := by
  cases order with
  | identity issuer subject =>
      simp only [TokenOrder.claims, Option.bind_eq_bind, Option.bind_eq_some_iff] at h
      obtain ⟨-, -, issuer', -, h⟩ := h
      cases h
      exact ⟨rfl, rfl, rfl⟩
  | scopedUser issuer subject contextId =>
      simp only [TokenOrder.claims, Option.bind_eq_bind, Option.bind_eq_some_iff] at h
      obtain ⟨issuer', -, h⟩ := h
      cases h
      exact ⟨rfl, rfl, rfl⟩
  | service use subject tenantId workspaceId roles permissions identityIssuer contextId =>
      simp only [TokenOrder.claims, Option.bind_eq_bind, Option.bind_eq_some_iff] at h
      obtain ⟨-, -, -, -, -, -, issuer', -, h⟩ := h
      cases h
      cases contextId with
      | none => exact ⟨rfl, rfl, rfl⟩
      | some contextId => exact ⟨rfl, rfl, rfl⟩

theorem issued_of_encode (h : i.encodeClaims order jti now = some c) :
    ∃ cs, order.claims i.audience = some cs ∧
      requiredClaim order.subject = some (Text.stripText order.subject) ∧
      IssuedClaims i order jti now cs c := by
  obtain ⟨cs, hcs, h⟩ := Option.bind_eq_some_iff.mp h
  obtain ⟨subject, hsubject, h⟩ := Option.bind_eq_some_iff.mp h
  obtain ⟨-, rfl⟩ := isBlank_of_requiredClaim hsubject
  obtain ⟨hjti, hiat, hexp⟩ := TokenOrder.claims_common hcs
  cases h
  refine ⟨cs, hcs, hsubject, ⟨rfl, rfl, ?_, ?_, ?_⟩, rfl, rfl, ?_, ?_⟩
  · rw [List.lookup_append, List.lookup_append, hiat]
    rfl
  · rw [List.lookup_append, List.lookup_append, hexp]
    rfl
  · simp only [List.forall_mem_cons]
    refine ⟨⟨_, rfl⟩, ⟨_, rfl⟩, ⟨jti.text.filter (· != '-'), ?_⟩,
      fun _ h => absurd h List.not_mem_nil⟩
    rw [List.lookup_append, List.lookup_append, hjti]
    rfl
  · rw [List.lookup_append, List.lookup_append, hjti]
    rfl
  · intro name hname
    simp only [commonRequiredClaims, List.mem_cons, List.not_mem_nil, or_false, not_or] at hname
    obtain ⟨hiss, haud, hsub, huse, hjti, hiat, hexp⟩ := hname
    have hhead : ∀ v₁ v₂ v₃ v₄ : ClaimValue,
        [("iss", v₁), ("aud", v₂), ("sub", v₃), ("token_use", v₄)].lookup name = none := by
      intro v₁ v₂ v₃ v₄
      simp [List.lookup_cons, beq_false_of_ne, hiss, haud, hsub, huse]
    have htail : ∀ v₁ v₂ v₃ : ClaimValue,
        [("jti", v₁), ("iat", v₂), ("exp", v₃)].lookup name = none := by
      intro v₁ v₂ v₃
      simp [List.lookup_cons, beq_false_of_ne, hjti, hiat, hexp]
    rw [List.lookup_append, List.lookup_append, hhead, htail, Option.none_or, Option.or_none]

/-- An order that names no authority makes no claim to any. -/
theorem IssuedClaims.powerless {cs : Claims} (h : IssuedClaims i order jti now cs c)
    (hcs : ∀ name ∈ authorityClaims, name ∉ cs.map Prod.fst) :
    ∀ name ∈ authorityClaims, c.lookup name = none := by
  have hapart : ∀ name ∈ authorityClaims, name ∉ commonRequiredClaims := by decide
  intro name hname
  rw [h.own name (hapart name hname), List.lookup_eq_none_iff]
  intro claim hclaim
  rw [bne_iff_ne]
  rintro rfl
  exact hcs _ hname (List.mem_map_of_mem hclaim)

/-- The contract holds of what was issued, but for a user token for the discovery audience. -/
theorem IssuedClaims.contract {cs : Claims} (h : IssuedClaims i order jti now cs c)
    (hclaims : order.claims i.audience = some cs) :
    validateTokenContract i.audience c order.tokenUse =
      if order.tokenUse = .user ∧ i.audience = identityDiscoveryAudience then none
      else some () := by
  cases order with
  | identity issuer subject =>
      simp only [TokenOrder.claims, Option.bind_eq_bind, Option.bind_eq_some_iff] at hclaims
      obtain ⟨_, haudience, issuer', hissuer, hclaims⟩ := hclaims
      cases hclaims
      have haudience := (Option.guard_eq_some' _).mp haudience
      have hnone := h.powerless
        (show ∀ name ∈ authorityClaims, name ∉ ["identity_issuer"] by decide)
      have hstring := claimString_eq (h.own "identity_issuer" (by decide))
        (isBlank_of_requiredClaim hissuer).1
      rw [if_neg (by rintro ⟨h, -⟩; cases h), haudience]
      exact contract_identity hnone hstring (h.own _ (by decide))
  | scopedUser issuer subject contextId =>
      simp only [TokenOrder.claims, Option.bind_eq_bind, Option.bind_eq_some_iff] at hclaims
      obtain ⟨issuer', hissuer, hclaims⟩ := hclaims
      cases hclaims
      have hnone := h.powerless
        (show ∀ name ∈ authorityClaims, name ∉ ["identity_issuer", "context_id"] by decide)
      have hstring := claimString_eq (h.own "identity_issuer" (by decide))
        (isBlank_of_requiredClaim hissuer).1
      have hcontext := claimContext_eq (h.own "context_id" (by decide))
      have huse : (TokenOrder.scopedUser issuer subject contextId).tokenUse = .user := rfl
      rw [huse, contract_user hnone hstring hcontext]
      simp only [true_and]
  | service use subject tenantId workspaceId roles permissions identityIssuer contextId =>
      simp only [TokenOrder.claims, Option.bind_eq_bind, Option.bind_eq_some_iff] at hclaims
      obtain ⟨_, huse, _, hscope, _, hlists, issuer', hissuer, hclaims⟩ := hclaims
      have huse := (Option.guard_eq_some' _).mp huse
      obtain ⟨htenant, hworkspace⟩ := (Option.guard_eq_some' _).mp hscope
      obtain ⟨hroles, hpermissions⟩ := (Option.guard_eq_some' _).mp hlists
      have hcontext : c.lookup "context_id" = none ∨
          ∃ contextId, claimContext c = some contextId := by
        have hown := h.own "context_id" (by decide)
        cases contextId with
        | none =>
            cases hclaims
            exact .inl hown
        | some contextId =>
            cases hclaims
            exact .inr ⟨contextId, claimContext_eq hown⟩
      cases hclaims
      have hother : ¬ use = .user := by
        rintro rfl
        cases huse
      rw [if_neg (fun h => hother h.1)]
      exact contract_service huse (claimString_eq (h.own "tenant_id" (by decide)) htenant)
        (claimString_eq (h.own "workspace_id" (by decide)) hworkspace)
        (claimStrings_eq (h.own "roles" (by decide)) hroles)
        (claimStrings_eq (h.own "permissions" (by decide)) hpermissions)
        (claimString_eq (h.own "identity_issuer" (by decide)) (isBlank_of_requiredClaim hissuer).1)
        hcontext

theorem IssuedClaims.reading {cs : Claims} (h : IssuedClaims i order jti now cs c)
    (hclaims : order.claims i.audience = some cs) : readToken c = order.reading := by
  have huse : (c.lookup "token_use").bind ClaimValue.asText = some order.tokenUse.name := by
    rw [h.tokenUse]
    rfl
  rw [readToken, huse]
  cases order with
  | identity issuer subject => rfl
  | scopedUser issuer subject contextId =>
      simp only [TokenOrder.claims, Option.bind_eq_bind, Option.bind_eq_some_iff] at hclaims
      obtain ⟨issuer', hissuer, hclaims⟩ := hclaims
      obtain ⟨-, rfl⟩ := isBlank_of_requiredClaim hissuer
      cases hclaims
      have hissuer : c.lookup "identity_issuer" = some (.text (Text.stripText issuer)) :=
        h.own _ (by decide)
      have hcontext : c.lookup "context_id" = some (.text contextId.text) := h.own _ (by decide)
      have hsubject : c.lookup "sub" = some (.text (Text.stripText subject)) := h.subject
      dsimp only [TokenOrder.tokenUse]
      rw [if_pos rfl]
      simp only [TokenOrder.reading, readUser, hissuer, hcontext, hsubject, ClaimValue.asText,
        Option.bind_eq_bind, Option.bind_some, Uuid.ofText_text]
  | service use subject tenantId workspaceId roles permissions identityIssuer contextId =>
      simp only [TokenOrder.claims, Option.bind_eq_bind, Option.bind_eq_some_iff] at hclaims
      obtain ⟨_, huse, _, -, _, -, issuer', hissuer, hclaims⟩ := hclaims
      have huse := (Option.guard_eq_some' _).mp huse
      obtain ⟨-, rfl⟩ := isBlank_of_requiredClaim hissuer
      have hsubject : c.lookup "sub" = some (.text (Text.stripText subject)) := h.subject
      have hcontext : c.lookup "context_id" = contextId.map (.text ∘ Uuid.text) := by
        have hown := h.own "context_id" (by decide)
        cases contextId with
        | none =>
            cases hclaims
            exact hown
        | some contextId =>
            cases hclaims
            exact hown
      cases hclaims
      have htenant : c.lookup "tenant_id" = some (.text tenantId) := h.own _ (by decide)
      have hworkspace : c.lookup "workspace_id" = some (.text workspaceId) := h.own _ (by decide)
      have hpermissions : c.lookup "permissions" = some (.texts permissions) :=
        h.own _ (by decide)
      have hissuer : c.lookup "identity_issuer" = some (.text (Text.stripText identityIssuer)) :=
        h.own _ (by decide)
      have hread : readService c = (do
          let tenantId ← filled tenantId
          let workspaceId ← filled workspaceId
          let issuer ← filled (Text.stripText identityIssuer)
          let subject ← filled (Text.stripText subject)
          some (.service tenantId workspaceId issuer subject permissions contextId)) := by
        cases contextId with
        | none =>
            simp only [readService, htenant, hworkspace, hpermissions, hissuer, hsubject, hcontext,
              ClaimValue.asText, Option.bind_eq_bind, Option.bind_some, Option.map_none,
              Option.filter_none]
        | some contextId =>
            have hkept : (some (ClaimValue.text contextId.text)).filter
                (fun v => decide (v ≠ .null)) = some (.text contextId.text) := rfl
            simp only [readService, htenant, hworkspace, hpermissions, hissuer, hsubject, hcontext,
              ClaimValue.asText, Option.bind_eq_bind, Option.bind_some, Option.map_some,
              Function.comp_apply, hkept, Uuid.ofText_text]
      dsimp only [TokenOrder.tokenUse]
      cases use with
      | identityDiscovery => cases huse
      | user => cases huse
      | worker | healthcheck =>
          rw [if_neg (by decide), if_neg (by decide), hread]
          rfl

theorem guard_bind {α : Type} {p : Prop} [Decidable p] (h : p) (f : Unit → Option α) :
    (guard p : Option Unit).bind f = f () := by
  rw [(Option.guard_eq_some' _).mpr h, Option.bind_some]

/-- A verifier of the same issuer and audience lets the encoded claims through while they live. -/
theorem verify_encode {key : lib.PublicKey} {t : ℤ}
    (hissuer : v.issuer = i.issuer) (haudience : v.audience = i.audience)
    (hkey : v.publicKeys i.keyId = some key) (hpair : lib.Pair i.privateKey key)
    (hlifetime : i.ttlSeconds ≤ v.maxTtlSeconds) (hencode : i.encodeClaims order jti now = some c) :
    v.verify t (lib.encode c i.privateKey i.keyId) =
      if (now ≤ t + v.leewaySeconds ∧ t - v.leewaySeconds < now + i.ttlSeconds) ∧
        ¬ (order.tokenUse = .user ∧ i.audience = identityDiscoveryAudience) then some c
      else none := by
  obtain ⟨cs, hclaims, hsubject, hissued⟩ := issued_of_encode hencode
  have hkid : i.keyId ≠ [] := by
    intro hnil
    have hblank := i.complete i.keyId List.mem_cons_self
    rw [hnil] at hblank
    cases hblank
  have hregistered : Registered v.options.issuer v.options.audience now (now + i.ttlSeconds) c := by
    rw [TokenVerifier.options, hissuer, haudience]
    exact hissued.registered
  have hdecode := lib.decode_encode c i.privateKey key i.keyId v.options t now
    (now + i.ttlSeconds) hpair hregistered
  have hissuedAt : (c.lookup "iat").bind lib.intOf = some now := by
    rw [hregistered.iat]
    exact lib.intOf_int now
  have hexpiresAt : (c.lookup "exp").bind lib.intOf = some (now + i.ttlSeconds) := by
    rw [hregistered.exp]
    exact lib.intOf_int _
  have huse : (c.lookup "token_use").bind ClaimValue.asText = some order.tokenUse.name := by
    rw [hissued.tokenUse]
    rfl
  have hsub := claimString_eq hissued.subject (isBlank_of_requiredClaim hsubject).1
  have hjti := claimString_eq hissued.jti (isBlank_hex jti)
  have hlimit : now + i.ttlSeconds - now ≤ v.maxTtlSeconds := by omega
  rw [TokenVerifier.verify, lib.header_encode]
  simp only [Option.bind_eq_bind, Option.bind_some, guard_bind hkid, hkey, hdecode]
  by_cases htime : now ≤ t + v.options.leewaySeconds ∧
      t - v.options.leewaySeconds < now + i.ttlSeconds
  · rw [if_pos htime]
    simp only [Option.bind_some, hissuedAt, hexpiresAt, guard_bind hlimit, hsub, hjti, huse,
      TokenUse.ofName_name, haudience, hissued.contract hclaims]
    by_cases huser : order.tokenUse = .user ∧ i.audience = identityDiscoveryAudience
    · rw [if_pos huser, if_neg (fun h => h.2 huser)]
      rfl
    · rw [if_neg huser, if_pos ⟨htime, huser⟩]
      rfl
  · rw [if_neg htime, if_neg (fun h => htime h.1)]
    rfl

theorem verifyAuthorization_bearer {token : List Char} (hne : token ≠ [])
    (hspaceless : ∀ ch ∈ token, Text.isSpace ch = false) :
    v.verifyAuthorization now (TokenVerifier.bearer ++ token) = v.verify now token := by
  rw [TokenVerifier.verifyAuthorization, List.drop_left, stripText_of_spaceless hspaceless]
  simp only [Option.bind_eq_bind, guard_bind (List.prefix_append _ _), guard_bind hne]

/-- A token that is issued is let through exactly while it lives, give or take the leeway, unless
it is a user's token for the audience of identity discovery; and what is read from its claims is
what it was ordered for. -/
theorem verify_issue {key : lib.PublicKey} {t : ℤ} {token : List Char}
    (hissuer : v.issuer = i.issuer) (haudience : v.audience = i.audience)
    (hkey : v.publicKeys i.keyId = some key) (hpair : lib.Pair i.privateKey key)
    (hlifetime : i.ttlSeconds ≤ v.maxTtlSeconds) (hissue : i.issue order jti now = some token) :
    ∃ c, i.encodeClaims order jti now = some c ∧ readToken c = order.reading ∧
      v.verifyAuthorization t (TokenVerifier.bearer ++ token) =
        if (now ≤ t + v.leewaySeconds ∧ t - v.leewaySeconds < now + i.ttlSeconds) ∧
          ¬ (order.tokenUse = .user ∧ i.audience = identityDiscoveryAudience) then some c
        else none := by
  obtain ⟨c, hencode, hissue⟩ := Option.bind_eq_some_iff.mp hissue
  cases hissue
  obtain ⟨cs, hclaims, -, hissued⟩ := issued_of_encode hencode
  refine ⟨c, hencode, hissued.reading hclaims, ?_⟩
  rw [verifyAuthorization_bearer (lib.encode_ne_nil c i.privateKey i.keyId)
    (lib.encode_spaceless c i.privateKey i.keyId)]
  exact verify_encode hissuer haudience hkey hpair hlifetime hencode

end Issued

section Samples

def ClaimValue.parts : ClaimValue → ℕ × List Char × ℤ × List (List Char) × ℕ
  | null => (0, [], 0, [], 0)
  | text s => (1, s, 0, [], 0)
  | int n => (2, [], n, [], 0)
  | texts l => (3, [], 0, l, 0)
  | other tag => (4, [], 0, [], tag)

instance countableClaimValue : Countable ClaimValue :=
  Function.Injective.countable (f := ClaimValue.parts) fun v v' h => by
    cases v <;> cases v' <;> simp_all [ClaimValue.parts]

theorem exists_writing : ∃ f : Claims × List Char → ℕ, Function.Injective f :=
  exists_injective_nat _

/-- A token in the clear, which nobody but the signer can write. -/
noncomputable def clearText (c : Claims) (kid : List Char) : List Char :=
  List.replicate (exists_writing.choose (c, kid) + 1) 'a'

theorem clearText_inj {c c' : Claims} {kid kid' : List Char}
    (h : clearText c kid = clearText c' kid') :
    c = c' ∧ kid = kid' := by
  have hlength := congrArg List.length h
  rw [clearText, clearText, List.length_replicate, List.length_replicate] at hlength
  have hsame := exists_writing.choose_spec (Nat.succ.inj hlength)
  exact ⟨congrArg Prod.fst hsame, congrArg Prod.snd hsame⟩

theorem clearText_ne_nil (c : Claims) (kid : List Char) : clearText c kid ≠ [] :=
  List.cons_ne_nil _ _

theorem clearText_spaceless (c : Claims) (kid : List Char) :
    ∀ ch ∈ clearText c kid, Text.isSpace ch = false := by
  intro ch hmem
  rw [List.eq_of_mem_replicate hmem]
  decide

/-- The token holds the claims for the audience and is in its time. -/
def Decodes (t : List Char) (o : DecodeOptions) (now : ℤ) (c : Claims) : Prop :=
  ∃ kid issuedAt expiresAt, t = clearText c kid ∧
    Registered o.issuer o.audience issuedAt expiresAt c ∧
    issuedAt ≤ now + o.leewaySeconds ∧ now - o.leewaySeconds < expiresAt

def ClaimValue.asInt : ClaimValue → Option ℤ
  | int n => some n
  | _ => none

open Classical in
noncomputable def plainHeader (t : List Char) : Option TokenHeader :=
  if h : ∃ p : Claims × List Char, clearText p.1 p.2 = t then
    some ⟨some rs256, some h.choose.2⟩
  else none

open Classical in
noncomputable def plainDecode (t : List Char) (o : DecodeOptions) (now : ℤ) : Option Claims :=
  if h : ∃ c, Decodes t o now c then some h.choose else none

theorem plainHeader_clearText (c : Claims) (kid : List Char) :
    plainHeader (clearText c kid) = some ⟨some rs256, some kid⟩ := by
  have h : ∃ p : Claims × List Char, clearText p.1 p.2 = clearText c kid := ⟨(c, kid), rfl⟩
  rw [plainHeader, dif_pos h, (clearText_inj h.choose_spec).2]

theorem plainDecode_clearText (c : Claims) (kid : List Char) (o : DecodeOptions)
    (now issuedAt expiresAt : ℤ) (hc : Registered o.issuer o.audience issuedAt expiresAt c) :
    plainDecode (clearText c kid) o now =
      if issuedAt ≤ now + o.leewaySeconds ∧ now - o.leewaySeconds < expiresAt then some c
      else none := by
  by_cases htime : issuedAt ≤ now + o.leewaySeconds ∧ now - o.leewaySeconds < expiresAt
  · have h : ∃ c', Decodes (clearText c kid) o now c' :=
      ⟨c, kid, issuedAt, expiresAt, rfl, hc, htime⟩
    obtain ⟨kid', -, -, hsame, -⟩ := h.choose_spec
    rw [plainDecode, dif_pos h, if_pos htime, ← (clearText_inj hsame).1]
  · have h : ¬ ∃ c', Decodes (clearText c kid) o now c' := by
      rintro ⟨c', kid', issuedAt', expiresAt', hsame, hc', htime'⟩
      obtain ⟨rfl, -⟩ := clearText_inj hsame
      have hissued := hc.iat.symm.trans hc'.iat
      have hexpires := hc.exp.symm.trans hc'.exp
      rw [Option.some.injEq, ClaimValue.int.injEq] at hissued hexpires
      rw [← hissued, ← hexpires] at htime'
      exact htime htime'
    rw [plainDecode, dif_neg h, if_neg htime]

theorem claims_of_plainDecode {t : List Char} {o : DecodeOptions} {now : ℤ} {c : Claims}
    (h : plainDecode t o now = some c) :
    (∀ name ∈ commonRequiredClaims, ∃ v, c.lookup name = some v ∧ v ≠ .null) ∧
    ∃ issuedAt expiresAt, (c.lookup "iat").bind ClaimValue.asInt = some issuedAt ∧
      (c.lookup "exp").bind ClaimValue.asInt = some expiresAt ∧
      issuedAt ≤ now + o.leewaySeconds ∧ now - o.leewaySeconds < expiresAt := by
  unfold plainDecode at h
  split_ifs at h with hdecodes
  obtain rfl := Option.some.inj h
  obtain ⟨kid, issuedAt, expiresAt, -, hc, htime⟩ := hdecodes.choose_spec
  refine ⟨?_, issuedAt, expiresAt, by rw [hc.iat]; rfl, by rw [hc.exp]; rfl, htime⟩
  obtain ⟨sub, hsub⟩ := hc.present "sub" (by decide)
  obtain ⟨use, huse⟩ := hc.present "token_use" (by decide)
  obtain ⟨jti, hjti⟩ := hc.present "jti" (by decide)
  simp only [commonRequiredClaims, List.forall_mem_cons]
  exact ⟨⟨_, hc.iss, fun h => by cases h⟩, ⟨_, hc.aud, fun h => by cases h⟩,
    ⟨_, hsub, fun h => by cases h⟩, ⟨_, huse, fun h => by cases h⟩, ⟨_, hjti, fun h => by cases h⟩,
    ⟨_, hc.iat, fun h => by cases h⟩, ⟨_, hc.exp, fun h => by cases h⟩,
    fun _ h => absurd h List.not_mem_nil⟩

/-- A library with one pair of keys. -/
noncomputable def plainJwt : JwtLibrary where
  PrivateKey := Unit
  PublicKey := Unit
  Pair _ _ := True
  encode c _ kid := clearText c kid
  header := plainHeader
  decode t _ o now := plainDecode t o now
  intOf := ClaimValue.asInt
  intOf_int _ := rfl
  encode_ne_nil c _ kid := clearText_ne_nil c kid
  encode_spaceless c _ kid := clearText_spaceless c kid
  header_encode c _ kid := plainHeader_clearText c kid
  decode_encode c _ _ kid o now issuedAt expiresAt _ hc :=
    plainDecode_clearText c kid o now issuedAt expiresAt hc
  decode_claims _ _ _ _ _ h := claims_of_plainDecode h

noncomputable def plainIssuer : TokenIssuer plainJwt :=
  ⟨(), ['k'], ['i'], ['a'], 60, by decide, by decide⟩

noncomputable def plainVerifier : TokenVerifier plainJwt :=
  ⟨fun _ => some (), ['i'], ['a'], 60, 5, by decide⟩

/-- A user acts in a context. -/
def plainOrder : TokenOrder := .scopedUser ['o'] [' ', 'u'] 7

theorem verified_tokens_confined_plain : ∃ c, readToken c ≠ .raised ∧
    plainVerifier.verify 64 (clearText c ['k']) = some c := by
  obtain ⟨c, hc⟩ : ∃ c, plainIssuer.encodeClaims plainOrder 0 0 = some c := ⟨_, rfl⟩
  have hverify : plainVerifier.verify 64 (clearText c ['k']) = some c :=
    (verify_encode (i := plainIssuer) (t := 64) rfl rfl rfl trivial (le_refl _) hc).trans
      (if_pos ⟨by decide, fun h => absurd h.2 (by decide)⟩)
  exact ⟨c, (verified_tokens_confined hverify).2.2, hverify⟩

theorem verify_issue_plain : ∃ c, readToken c = plainOrder.reading ∧
    plainVerifier.verifyAuthorization 64 (TokenVerifier.bearer ++ clearText c ['k']) = some c := by
  obtain ⟨c, hc⟩ : ∃ c, plainIssuer.encodeClaims plainOrder 0 0 = some c := ⟨_, rfl⟩
  have hissue : plainIssuer.issue plainOrder 0 0 = some (clearText c ['k']) := by
    rw [TokenIssuer.issue, hc]
    rfl
  obtain ⟨c', hc', hreading, hverify⟩ := verify_issue (v := plainVerifier) (t := 64)
    rfl rfl rfl trivial (le_refl _) hissue
  obtain rfl : c = c' := Option.some.inj (hc.symm.trans hc')
  exact ⟨c, hreading, hverify.trans (if_pos ⟨by decide, fun h => absurd h.2 (by decide)⟩)⟩

end Samples

end CryptoAlert
