import CryptoAlert.Lib.Text
import CryptoAlert.Lib.Uuids

/-!
# The permissions of an Agent Server request

An internal token is turned into a user whose permission list carries the authority of the request
as tagged strings, behind the permissions that were granted. The handlers authorise a user again
through its membership, and read the authority back from the list by its prefixes.
-/

namespace CryptoAlert

abbrev Permission := List Char

/-- A text that is not empty. -/
abbrev Filled := {s : List Char // s ≠ []}

/-- The part of a membership that does not change. -/
structure MembershipScope where
  tenantId : Filled
  workspaceId : Filled

/-- The memberships: the scope of an issuer, a subject and a context. -/
abbrev Directory := Filled → Filled → Uuid → Option MembershipScope

/-- The permissions that active memberships grant at one moment. -/
abbrev Grants := Filled → Filled → Uuid → Option (List Permission)

/-- The claims of a verified token. -/
inductive AgentToken where
  | user (issuer subject : Filled) (contextId : Uuid)
  | service (tenantId workspaceId issuer subject : Filled) (permissions : List Permission)
      (contextId : Option Uuid)

/-- On whose behalf a request is made. -/
structure AgentIdentity where
  tenantId : Filled
  workspaceId : Filled
  issuer : Filled
  subject : Filled
  contextId : Option Uuid
deriving DecidableEq

/-- `MinimalUserDict`. -/
structure AgentUser where
  identity : Filled
  permissions : List Permission

structure AuthorizedActor where
  scope : MembershipScope
  permissions : List Permission

section Authenticate

variable (directory : Directory)

/-- `DatabaseMembershipAuthority.authorize`. -/
def authorize (grants : Grants) (issuer subject : Filled) (contextId : Uuid) :
    Option AuthorizedActor := do
  let scope ← directory issuer subject contextId
  let permissions ← grants issuer subject contextId
  some ⟨scope, permissions⟩

def tenantTag : Permission := "tenant:".toList

def workspaceTag : Permission := "workspace:".toList

def issuerTag : Permission := "identity-issuer:".toList

def contextTag : Permission := "auth-context:".toList

def trustedService : Permission := "trusted-service".toList

/-- The tags of an identity; the issuer is left out where there is no context. -/
def AgentIdentity.tags (a : AgentIdentity) : List Permission :=
  [tenantTag ++ a.tenantId.val, workspaceTag ++ a.workspaceId.val] ++
    match a.contextId with
    | some contextId => [issuerTag ++ a.issuer.val, contextTag ++ contextId.text]
    | none => []

/-- The identity of a token. -/
def AgentToken.identity : AgentToken → Option AgentIdentity
  | user issuer subject contextId => (directory issuer subject contextId).map fun scope =>
      ⟨scope.tenantId, scope.workspaceId, issuer, subject, some contextId⟩
  | service tenantId workspaceId issuer subject _ contextId =>
      some ⟨tenantId, workspaceId, issuer, subject, contextId⟩

/-- `_user`. -/
def agentUser (a : AgentIdentity) (permissions : List Permission) (trusted : Bool) : AgentUser :=
  ⟨a.subject, permissions ++ a.tags ++ if trusted then [trustedService] else []⟩

/-- `authenticate`, for a token that has been verified; `none` where it is refused. -/
def authenticate (grants : Grants) (token : AgentToken) : Option AgentUser := do
  let a ← token.identity directory
  match token with
  | .user issuer subject contextId =>
      let actor ← authorize directory grants issuer subject contextId
      some (agentUser a actor.permissions false)
  | .service _ _ _ _ permissions _ => some (agentUser a permissions true)

/-- `_tag`. -/
def tag (permissions : List Permission) (pre : Permission) : Option (List Char) :=
  permissions.findSome? fun p =>
    if pre <+: p ∧ pre.length < p.length then some (p.drop pre.length) else none

/-- Text that `ActorContext` and the membership query accept as an issuer. -/
def filled (s : List Char) : Option Filled := if h : s ≠ [] then some ⟨s, h⟩ else none

/-- `_authorized_permissions`. -/
def authorizedPermissions (grants : Grants) (user : AgentUser) : Option (List Permission) :=
  if trustedService ∈ user.permissions then some user.permissions
  else
    match tag user.permissions contextTag, tag user.permissions issuerTag with
    | none, none => some user.permissions
    | some contextId, some issuer => do
        let issuer ← filled issuer
        let contextId ← Uuid.ofText contextId
        let actor ← authorize directory grants issuer user.identity contextId
        some (actor.permissions ++ AgentIdentity.tags
          ⟨actor.scope.tenantId, actor.scope.workspaceId, issuer, user.identity, some contextId⟩)
    | _, _ => none

end Authenticate

/-- The permission carries a value behind the prefix. -/
def IsTag (pre p : Permission) : Prop := pre <+: p ∧ pre.length < p.length

/-- A granted permission that the handlers would read as authority. -/
def ClaimsAuthority (p : Permission) : Prop :=
  ∃ pre ∈ [tenantTag, workspaceTag, issuerTag, contextTag], IsTag pre p

variable {directory : Directory} {permissions rest : List Permission} {pre : Permission}

theorem tag_append (h : ∀ p ∈ permissions, ¬ IsTag pre p) :
    tag (permissions ++ rest) pre = tag rest pre := by
  have hnone : tag permissions pre = none := by
    rw [tag, List.findSome?_eq_none_iff]
    intro p hp
    exact if_neg (h p hp)
  rw [tag, List.findSome?_append]
  rw [tag] at hnone
  rw [hnone]
  rfl

theorem tag_cons_self {s : List Char} (h : s ≠ []) : tag ((pre ++ s) :: rest) pre = some s := by
  have htag : pre <+: pre ++ s ∧ pre.length < (pre ++ s).length := by
    refine ⟨List.prefix_append _ _, ?_⟩
    rw [List.length_append]
    have hpos := List.length_pos_iff.mpr h
    omega
  rw [tag, List.findSome?_cons, if_pos htag, List.drop_left]

theorem tag_cons_of_not {p : Permission} (h : ¬ pre <+: p) : tag (p :: rest) pre = tag rest pre := by
  rw [tag, List.findSome?_cons, if_neg (fun hp => h hp.1)]
  rfl

/-- Neither prefix begins with the other. -/
def Apart (pre pre' : Permission) : Prop := ¬ pre <+: pre' ∧ ¬ pre' <+: pre

instance (pre pre' : Permission) : Decidable (Apart pre pre') :=
  inferInstanceAs (Decidable (_ ∧ _))

theorem tag_cons_of_apart {pre' : Permission} (h : Apart pre pre') (s : List Char) :
    tag ((pre' ++ s) :: rest) pre = tag rest pre := by
  apply tag_cons_of_not
  intro hp
  rcases List.prefix_or_prefix_of_prefix hp (List.prefix_append pre' s) with hleft | hright
  · exact h.1 hleft
  · exact h.2 hright

/-- What the tags of an identity say. -/
structure Carries (permissions : List Permission) (a : AgentIdentity) : Prop where
  tenant : tag permissions tenantTag = some a.tenantId.val
  workspace : tag permissions workspaceTag = some a.workspaceId.val
  issuer : tag permissions issuerTag = a.contextId.map fun _ => a.issuer.val
  context : tag permissions contextTag = a.contextId.map Uuid.text

theorem text_ne_nil (u : Uuid) : u.text ≠ [] := by
  intro h
  have hlen := u.length_text
  rw [h] at hlen
  cases hlen

/-- Behind permissions that claim no authority, the tags of an identity are what is read. -/
theorem carries_tags (a : AgentIdentity) {granted rest : List Permission}
    (hgranted : ∀ p ∈ granted, ¬ ClaimsAuthority p) (hrest : ∀ p ∈ rest, ¬ ClaimsAuthority p) :
    Carries (granted ++ a.tags ++ rest) a := by
  have hprefixes : ∀ pre ∈ [tenantTag, workspaceTag, issuerTag, contextTag],
      tag (granted ++ a.tags ++ rest) pre = tag (a.tags ++ rest) pre ∧ tag rest pre = none := by
    intro pre hpre
    constructor
    · rw [List.append_assoc]
      exact tag_append fun p hp htag => hgranted p hp ⟨pre, hpre, htag⟩
    · have happend := @tag_append rest [] pre fun p hp htag => hrest p hp ⟨pre, hpre, htag⟩
      rwa [List.append_nil] at happend
  simp only [List.forall_mem_cons] at hprefixes
  obtain ⟨⟨htenant, -⟩, ⟨hworkspace, -⟩, ⟨hissuer, hnoIssuer⟩, ⟨hcontext, hnoContext⟩, -⟩ :=
    hprefixes
  constructor
  · rw [htenant]
    exact tag_cons_self a.tenantId.property
  · rw [hworkspace]
    exact (tag_cons_of_apart (by decide +kernel) _).trans (tag_cons_self a.workspaceId.property)
  · rw [hissuer]
    refine (tag_cons_of_apart (by decide +kernel) _).trans
      ((tag_cons_of_apart (by decide +kernel) _).trans ?_)
    cases a.contextId with
    | none => exact hnoIssuer
    | some contextId => exact tag_cons_self a.issuer.property
  · rw [hcontext]
    refine (tag_cons_of_apart (by decide +kernel) _).trans
      ((tag_cons_of_apart (by decide +kernel) _).trans ?_)
    cases a.contextId with
    | none => exact hnoContext
    | some contextId =>
        exact (tag_cons_of_apart (by decide +kernel) _).trans (tag_cons_self (text_ne_nil _))

theorem trustedService_claims_nothing : ¬ ClaimsAuthority trustedService := by
  rintro ⟨pre, hpre, hprefix, -⟩
  have hnone : ∀ pre ∈ [tenantTag, workspaceTag, issuerTag, contextTag],
      ¬ pre <+: trustedService := by decide +kernel
  exact hnone pre hpre hprefix

section Authorized

variable {before now : Grants} {token : AgentToken} {user : AgentUser} {a : AgentIdentity}

/-- The permissions that were granted to the token, and to its membership now, claim no
authority. -/
def ClaimsNothing (before now : Grants) : AgentToken → Prop
  | .user issuer subject contextId =>
      (∀ granted, before issuer subject contextId = some granted →
        ∀ p ∈ granted, ¬ ClaimsAuthority p) ∧
      ∀ granted, now issuer subject contextId = some granted → ∀ p ∈ granted, ¬ ClaimsAuthority p
  | .service _ _ _ _ permissions _ => ∀ p ∈ permissions, ¬ ClaimsAuthority p

/-- What an authenticated user is. -/
theorem authenticate_cases (h : authenticate directory before token = some user) :
    ∃ a, token.identity directory = some a ∧
      ((∃ issuer subject contextId granted, token = .user issuer subject contextId ∧
          before issuer subject contextId = some granted ∧ user = agentUser a granted false) ∨
        ∃ tenantId workspaceId issuer subject granted contextId,
          token = .service tenantId workspaceId issuer subject granted contextId ∧
          user = agentUser a granted true) := by
  obtain ⟨a, ha, h⟩ := Option.bind_eq_some_iff.mp h
  refine ⟨a, ha, ?_⟩
  cases token with
  | user issuer subject contextId =>
      obtain ⟨actor, hactor, huser⟩ := Option.bind_eq_some_iff.mp h
      obtain ⟨scope, -, hrest⟩ := Option.bind_eq_some_iff.mp hactor
      obtain ⟨granted, hgranted, hsome⟩ := Option.bind_eq_some_iff.mp hrest
      cases hsome
      exact .inl ⟨issuer, subject, contextId, granted, rfl, hgranted, (Option.some.inj huser).symm⟩
  | service tenantId workspaceId issuer subject granted contextId =>
      exact .inr ⟨tenantId, workspaceId, issuer, subject, granted, contextId, rfl,
        (Option.some.inj h).symm⟩

/-- The permissions that the handlers read carry the identity of the token. -/
theorem carries_authorized (hnothing : ClaimsNothing before now token)
    (huser : authenticate directory before token = some user)
    (ha : token.identity directory = some a)
    (h : authorizedPermissions directory now user = some permissions) :
    Carries permissions a ∧ user.identity = a.subject := by
  obtain ⟨a', ha', hcases⟩ := authenticate_cases huser
  obtain rfl : a' = a := Option.some.inj (ha'.symm.trans ha)
  obtain ⟨issuer, subject, contextId, granted, rfl, hgranted, rfl⟩ |
    ⟨tenantId, workspaceId, issuer, subject, granted, contextId, rfl, rfl⟩ := hcases
  · have hidentity : a'.issuer = issuer ∧ a'.subject = subject ∧
        a'.contextId = some contextId := by
      obtain ⟨scope, -, rfl⟩ := Option.map_eq_some_iff.mp ha
      exact ⟨rfl, rfl, rfl⟩
    obtain ⟨hissuer, hsubject, hcontext⟩ := hidentity
    have hcarries : Carries (agentUser a' granted false).permissions a' :=
      carries_tags a' (hnothing.1 granted hgranted) fun _ h => absurd h List.not_mem_nil
    rw [authorizedPermissions] at h
    by_cases htrusted : trustedService ∈ (agentUser a' granted false).permissions
    · rw [if_pos htrusted] at h
      rw [← Option.some.inj h]
      exact ⟨hcarries, rfl⟩
    · rw [if_neg htrusted, hcarries.context, hcarries.issuer, hcontext] at h
      have hfilled : filled a'.issuer.val = some a'.issuer := dif_pos a'.issuer.property
      simp only [Option.map_some, hfilled, Uuid.ofText_text, Option.bind_eq_bind,
        Option.bind_some] at h
      obtain ⟨actor, hactor, h⟩ := Option.bind_eq_some_iff.mp h
      obtain ⟨scope, hscope, hnow⟩ := Option.bind_eq_some_iff.mp hactor
      obtain ⟨current, hcurrent, hactor⟩ := Option.bind_eq_some_iff.mp hnow
      cases hactor
      rw [hissuer] at hcurrent hscope
      have hsame : (agentUser a' granted false).identity = subject := hsubject
      rw [hsame] at hcurrent hscope
      have hown : (⟨scope.tenantId, scope.workspaceId, a'.issuer, a'.subject,
          some contextId⟩ : AgentIdentity) = a' := by
        rw [AgentToken.identity, hscope] at ha
        exact (by rw [← Option.some.inj ha])
      have hnew := carries_tags a' (hnothing.2 current hcurrent)
        (fun p (hp : p ∈ []) => absurd hp List.not_mem_nil)
      rw [List.append_nil] at hnew
      rw [← Option.some.inj h]
      exact ⟨by rw [← hown] at hnew ⊢; exact hnew, rfl⟩
  · have htrusted : trustedService ∈ (agentUser a' granted true).permissions :=
      List.mem_append_right _ List.mem_cons_self
    rw [authorizedPermissions, if_pos htrusted] at h
    rw [← Option.some.inj h]
    exact ⟨carries_tags a' hnothing
      (List.forall_mem_singleton.mpr trustedService_claims_nothing), rfl⟩

end Authorized

end CryptoAlert
