import CryptoAlert.Auth.ThreadIsolation
import CryptoAlert.Lib.CodePoints
import CryptoAlert.Lib.Partitions

/-!
# Private stores in the Agent Server store

Every request to the store is rewritten to a namespace below the tenant, the workspace and the
principal of its identity. The server keeps one map of namespaces and keys to values; it reads
and writes an item at exactly the rewritten namespace and lists those below it.
-/

namespace CryptoAlert

abbrev Namespace := List (List Char)

/-- The scopes of `rewrite_namespace`. -/
inductive StoreScope where
  | ownScope | workspaceScope | restrictedScope
deriving DecidableEq, Repr

def StoreScope.name : StoreScope → List Char
  | ownScope => "private".toList
  | workspaceScope => "workspace".toList
  | restrictedScope => "restricted".toList

/-- The fields of an `ActorContext` that `rewrite_namespace` reads. -/
structure NamespaceActor where
  tenantId : List Char
  workspaceId : List Char
  userId : List Char
  permissions : List Permission

def memoryRestricted : Permission := "memory:restricted".toList

/-- `rewrite_namespace`; `none` where it raises. -/
def rewriteNamespace (actor : NamespaceActor) (scope : StoreScope) (principalId : List Char)
    (parts : Namespace) : Option Namespace := do
  guard (parts ≠ [] ∧ [] ∉ parts)
  guard (scope = .ownScope → principalId = actor.userId)
  guard (scope = .workspaceScope → principalId = actor.workspaceId)
  guard (scope = .restrictedScope → memoryRestricted ∈ actor.permissions)
  some (["tenant".toList, actor.tenantId, "workspace".toList, actor.workspaceId, "scope".toList,
    scope.name, "principal".toList, principalId] ++ parts)

def identityDigestTag : List Char := "identity-sha256:".toList

/-- `_store_principal`. -/
def storePrincipal (digest : List Char → List Char) (identity : List Char)
    (issuer : Option (List Char)) : List Char :=
  match issuer with
  | none => identity
  | some issuer => identityDigestTag ++ digest (issuer ++ '\x00' :: identity)

/-- `_STORE_AUTHORITY_COMPONENTS`. -/
def storeAuthorityComponents : List (List Char) :=
  ["tenant", "workspace", "user", "scope", "principal", "purpose"].map String.toList

/-- `_STORE_PURPOSE`. -/
def storePurpose : List Char := "agent-memory".toList

/-- A component of a namespace that a client sends. -/
inductive NamespacePart where
  | text (s : List Char)
  | other

def NamespacePart.accepted : NamespacePart → Option (List Char)
  | text s => if s ≠ [] ∧ s ∉ storeAuthorityComponents then some s else none
  | other => none

/-- The namespace that a client sends. -/
inductive SuppliedNamespace where
  | absent
  | parts (l : List NamespacePart)
  | other

/-- The components of the supplied namespace; `none` where it is refused. -/
def SuppliedNamespace.accepted : SuppliedNamespace → Option Namespace
  | absent => some []
  | parts l => l.mapM NamespacePart.accepted
  | other => none

/-- `scope_store`; `none` where it is refused. -/
def scopeStore (digest : List Char → List Char) (permissions : List Permission)
    (identity : Filled) (supplied : SuppliedNamespace) : Option Namespace := do
  let tenantId ← tag permissions tenantTag
  let workspaceId ← tag permissions workspaceTag
  let parts ← supplied.accepted
  let principal := storePrincipal digest identity.val (tag permissions issuerTag)
  rewriteNamespace ⟨tenantId, workspaceId, principal, []⟩ .ownScope principal
    (storePurpose :: parts)

inductive StoreCall where
  | put (supplied : SuppliedNamespace) (key : List Char) (value : Json)
  | delete (supplied : SuppliedNamespace) (key : List Char)
  | get (supplied : SuppliedNamespace) (key : List Char)
  | search (supplied : SuppliedNamespace)
  | listNamespaces (supplied : SuppliedNamespace)

def StoreCall.supplied : StoreCall → SuppliedNamespace
  | put supplied _ _ | delete supplied _ | get supplied _ | search supplied
  | listNamespaces supplied => supplied

/-- A request, with what memberships grant when it is authenticated and when it is handled. -/
structure StoreRequest where
  token : AgentToken
  before : Grants
  now : Grants
  call : StoreCall

/-- The items of the server, by namespace and key. -/
abbrev AgentStore := Namespace × List Char → Option Json

section Handling

variable (digest : List Char → List Char) (directory : Directory)

/-- The namespace that the handler leaves in the request. -/
def StoreRequest.rewritten (r : StoreRequest) : Option Namespace := do
  let user ← authenticate directory r.before r.token
  let permissions ← authorizedPermissions directory r.now user
  scopeStore digest permissions user.identity r.call.supplied

namespace AgentStore

/-- The items after a request. -/
def handle (m : AgentStore) (r : StoreRequest) : AgentStore :=
  match r.rewritten digest directory, r.call with
  | some ns, .put _ key value => Function.update m (ns, key) (some value)
  | some ns, .delete _ key => Function.update m (ns, key) none
  | _, _ => m

/-- The items that a request is answered with. -/
def answer (m : AgentStore) (r : StoreRequest) : AgentStore :=
  match r.rewritten digest directory, r.call with
  | some ns, .get _ key => fun q => if q = (ns, key) then m q else none
  | some ns, .search _ | some ns, .listNamespaces _ => fun q => if ns <+: q.1 then m q else none
  | _, _ => fun _ => none

def run (rs : List StoreRequest) : AgentStore := rs.foldl (handle digest directory) fun _ => none

end AgentStore

end Handling

/-- On whose behalf a private store is kept. -/
structure StoreOwner where
  tenantId : Filled
  workspaceId : Filled
  subject : Filled
  /-- The issuer, where the identity acts in a context. -/
  issuer : Option Filled
deriving DecidableEq

def AgentIdentity.owner (a : AgentIdentity) : StoreOwner :=
  ⟨a.tenantId, a.workspaceId, a.subject, a.contextId.map fun _ => a.issuer⟩

/-- No issuer holds a null character, and no subject without an issuer looks like a digest. -/
structure StoreOwner.Plain (o : StoreOwner) : Prop where
  issuer : ∀ i ∈ o.issuer, '\x00' ∉ i.val
  subject : o.issuer = none → ¬ identityDigestTag <+: o.subject.val

section Embedding

variable {digest : List Char → List Char} {directory : Directory} {permissions : List Permission}
  {a : AgentIdentity}

variable (digest) in
def StoreOwner.principal (o : StoreOwner) : List Char :=
  storePrincipal digest o.subject.val (o.issuer.map Subtype.val)

variable (digest) in
/-- The namespace of a private store. -/
def StoreOwner.namespaceOf (o : StoreOwner) (parts : Namespace) : Namespace :=
  ["tenant".toList, o.tenantId.val, "workspace".toList, o.workspaceId.val, "scope".toList,
    "private".toList, "principal".toList, o.principal digest, storePurpose] ++ parts

variable (digest) in
/-- The place of an item of a private store in the store of the server. -/
def storeKey (o : StoreOwner) (p : Namespace × List Char) : Namespace × List Char :=
  (o.namespaceOf digest p.1, p.2)

theorem accepted_ne_nil {l : List NamespacePart} {parts : Namespace}
    (h : l.mapM NamespacePart.accepted = some parts) : [] ∉ parts := by
  induction l generalizing parts with
  | nil =>
      cases h
      exact List.not_mem_nil
  | cons p l ih =>
      rw [List.mapM_cons] at h
      obtain ⟨s, hs, h⟩ := Option.bind_eq_some_iff.mp h
      obtain ⟨rest, hrest, h⟩ := Option.bind_eq_some_iff.mp h
      cases h
      intro hmem
      rcases List.mem_cons.mp hmem with hnil | hmem
      · cases p with
        | text t =>
            simp only [NamespacePart.accepted] at hs
            split_ifs at hs with ht
            cases hs
            exact ht.1 hnil.symm
        | other => cases hs
      · exact ih hrest hmem

theorem SuppliedNamespace.accepted_ne_nil {supplied : SuppliedNamespace} {parts : Namespace}
    (h : supplied.accepted = some parts) : [] ∉ parts := by
  cases supplied with
  | absent =>
      cases h
      exact List.not_mem_nil
  | parts l => exact CryptoAlert.accepted_ne_nil h
  | other => cases h

/-- Where the permissions carry an identity, its requests are rewritten into its private store. -/
theorem scopeStore_eq (h : Carries permissions a) (supplied : SuppliedNamespace) :
    scopeStore digest permissions a.subject supplied =
      supplied.accepted.map (a.owner.namespaceOf digest) := by
  have hissuer : tag permissions issuerTag = a.owner.issuer.map Subtype.val := by
    rw [h.issuer, AgentIdentity.owner]
    cases a.contextId <;> rfl
  rw [scopeStore, h.tenant, h.workspace, hissuer]
  cases haccepted : supplied.accepted with
  | none => rfl
  | some parts =>
      have hparts : storePurpose :: parts ≠ [] ∧ [] ∉ storePurpose :: parts := by
        refine ⟨List.cons_ne_nil _ _, ?_⟩
        intro hmem
        rcases List.mem_cons.mp hmem with hnil | hmem
        · exact absurd hnil (by decide)
        · exact SuppliedNamespace.accepted_ne_nil haccepted hmem
      simp only [Option.bind_eq_bind, Option.bind_some, rewriteNamespace, guard, if_pos hparts,
        Option.pure_def, Option.map_some]
      rfl

/-- Issuers without null characters and subjects are read off their join. -/
theorem joined_injective {i i' s s' : List Char} (hi : '\x00' ∉ i) (hi' : '\x00' ∉ i')
    (h : i ++ '\x00' :: s = i' ++ '\x00' :: s') : i = i' ∧ s = s' :=
  append_separator_inj hi hi' h

/-- The principals of plain owners tell issuers and subjects apart. -/
theorem principal_injective (hdigest : Function.Injective digest) {o o' : StoreOwner}
    (ho : o.Plain) (ho' : o'.Plain) (h : o.principal digest = o'.principal digest) :
    o.issuer = o'.issuer ∧ o.subject = o'.subject := by
  unfold StoreOwner.principal storePrincipal at h
  cases hissuer : o.issuer with
  | none =>
      cases hissuer' : o'.issuer with
      | none =>
          simp only [hissuer, hissuer', Option.map_none] at h
          exact ⟨rfl, Subtype.ext h⟩
      | some i' =>
          simp only [hissuer, hissuer', Option.map_none, Option.map_some] at h
          exact absurd ⟨_, h.symm⟩ (ho.subject hissuer)
  | some i =>
      cases hissuer' : o'.issuer with
      | none =>
          simp only [hissuer, hissuer', Option.map_none, Option.map_some] at h
          exact absurd ⟨_, h⟩ (ho'.subject hissuer')
      | some i' =>
          simp only [hissuer, hissuer', Option.map_some] at h
          have hjoined := hdigest (List.append_cancel_left h)
          obtain ⟨hi, hs⟩ := joined_injective (ho.issuer i hissuer) (ho'.issuer i' hissuer') hjoined
          exact ⟨congrArg some (Subtype.ext hi), Subtype.ext hs⟩

/-- The namespaces of two owners agree as far as the purpose only if the owners do. -/
theorem owner_eq_of_namespace (hdigest : Function.Injective digest) {o o' : StoreOwner}
    (ho : o.Plain) (ho' : o'.Plain) {parts parts' : Namespace}
    (h : o.namespaceOf digest parts = o'.namespaceOf digest parts') : o = o' ∧ parts = parts' := by
  simp only [StoreOwner.namespaceOf, List.cons_append, List.nil_append, List.cons.injEq] at h
  obtain ⟨-, htenant, -, hworkspace, -, -, -, hprincipal, -, hparts⟩ := h
  obtain ⟨hissuer, hsubject⟩ := principal_injective hdigest ho ho' hprincipal
  refine ⟨?_, hparts⟩
  obtain ⟨tenantId, workspaceId, subject, issuer⟩ := o
  obtain ⟨tenantId', workspaceId', subject', issuer'⟩ := o'
  simp only [StoreOwner.mk.injEq]
  exact ⟨Subtype.ext htenant, Subtype.ext hworkspace, hsubject, hissuer⟩

/-- The private stores of plain owners do not overlap. -/
theorem keepsApart_storeKey (hdigest : Function.Injective digest) :
    KeepsApart (storeKey digest) StoreOwner.Plain := by
  intro o o' p p' ho ho' h
  obtain ⟨hnamespace, hkey⟩ := Prod.ext_iff.mp h
  obtain ⟨rfl, hparts⟩ := owner_eq_of_namespace hdigest ho ho' hnamespace
  exact ⟨rfl, Prod.ext hparts hkey⟩

end Embedding

section Private

variable (directory : Directory)

/-- The private store of a request and the components of its namespace; `none` if it is
refused. -/
def StoreRequest.target (r : StoreRequest) : Option (StoreOwner × Namespace) := do
  let a ← r.token.identity directory
  let user ← authenticate directory r.before r.token
  let _ ← authorizedPermissions directory r.now user
  let parts ← r.call.supplied.accepted
  some (a.owner, parts)

/-- What a request writes to a private store. -/
def StoreRequest.write (r : StoreRequest) : Option (OwnWrite StoreOwner (Namespace × List Char) Json) :=
  match r.target directory, r.call with
  | some (o, parts), .put _ key value => some ⟨o, (parts, key), some value⟩
  | some (o, parts), .delete _ key => some ⟨o, (parts, key), none⟩
  | _, _ => none

/-- The items of a private store that a call is about, below the given components. -/
def StoreCall.Selects (call : StoreCall) (parts : Namespace) (p : Namespace × List Char) : Prop :=
  match call with
  | .get _ key => p = (parts, key)
  | .search _ | .listNamespaces _ => parts <+: p.1
  | .put _ _ _ | .delete _ _ => False

/-- No granted permission claims authority, and the owner is plain. -/
structure StoreRequest.Regular (r : StoreRequest) : Prop where
  permissions : ClaimsNothing r.before r.now r.token
  plain : ∀ a, r.token.identity directory = some a → a.owner.Plain

/-- The private store that the requests of one owner make, as if there were no others. -/
def privateStore (rs : List StoreRequest) (o : StoreOwner) : Namespace × List Char → Option Json :=
  ((rs.filterMap fun r => r.write directory).filter fun w => w.owner = o).foldl applyOwn
    fun _ => none

end Private

section Isolation

variable {digest : List Char → List Char} {directory : Directory} {r : StoreRequest}

/-- A request is rewritten into its private store, or refused with it. -/
theorem rewritten_eq (hr : r.Regular directory) :
    r.rewritten digest directory =
      (r.target directory).map fun x => x.1.namespaceOf digest x.2 := by
  unfold StoreRequest.rewritten StoreRequest.target
  cases huser : authenticate directory r.before r.token with
  | none =>
      cases r.token.identity directory <;> rfl
  | some user =>
      obtain ⟨a, ha, -⟩ := authenticate_cases huser
      cases hpermissions : authorizedPermissions directory r.now user with
      | none =>
          simp only [ha, hpermissions, Option.bind_eq_bind, Option.bind_some, Option.bind_none,
            Option.map_none]
      | some permissions =>
          obtain ⟨hcarries, hidentity⟩ := carries_authorized hr.permissions huser ha hpermissions
          simp only [ha, hpermissions, Option.bind_eq_bind, Option.bind_some, hidentity,
            scopeStore_eq hcarries]
          cases r.call.supplied.accepted <;> rfl

theorem plain_of_target (hr : r.Regular directory) {o : StoreOwner} {parts : Namespace}
    (h : r.target directory = some (o, parts)) : o.Plain := by
  obtain ⟨a, ha, h⟩ := Option.bind_eq_some_iff.mp h
  obtain ⟨_, -, h⟩ := Option.bind_eq_some_iff.mp h
  obtain ⟨_, -, h⟩ := Option.bind_eq_some_iff.mp h
  obtain ⟨_, -, h⟩ := Option.bind_eq_some_iff.mp h
  cases h
  exact hr.plain a ha

theorem target_of_write {w : OwnWrite StoreOwner (Namespace × List Char) Json}
    (h : r.write directory = some w) : ∃ parts, r.target directory = some (w.owner, parts) := by
  unfold StoreRequest.write at h
  split at h
  · rename_i o parts _ _ _ htarget _
    cases h
    exact ⟨parts, htarget⟩
  · rename_i o parts _ _ htarget _
    cases h
    exact ⟨parts, htarget⟩
  · cases h

/-- The server handles a request as a write to a private store, or leaves its items alone. -/
theorem handle_eq (hr : r.Regular directory) (m : AgentStore) :
    m.handle digest directory r =
      (r.write directory).elim m (applyShared (storeKey digest) m) := by
  unfold AgentStore.handle StoreRequest.write
  rw [rewritten_eq hr]
  cases htarget : r.target directory with
  | none => cases r.call <;> rfl
  | some x => cases r.call <;> rfl

theorem run_eq (rs : List StoreRequest) (hrs : ∀ r ∈ rs, r.Regular directory) (m : AgentStore) :
    rs.foldl (AgentStore.handle digest directory) m =
      (rs.filterMap fun r => r.write directory).foldl (applyShared (storeKey digest)) m := by
  induction rs generalizing m with
  | nil => rfl
  | cons r rs ih =>
      obtain ⟨hr, hrest⟩ := List.forall_mem_cons.mp hrs
      rw [List.foldl_cons, ih hrest, handle_eq hr, List.filterMap_cons]
      cases r.write directory <;> rfl

/-- What an owner sees of the server after any requests. -/
theorem viewOf_run (hdigest : Function.Injective digest) (rs : List StoreRequest)
    (hrs : ∀ r ∈ rs, r.Regular directory) {o : StoreOwner} (ho : o.Plain) :
    viewOf (storeKey digest) (AgentStore.run digest directory rs) o =
      privateStore directory rs o := by
  rw [AgentStore.run, run_eq rs hrs, viewOf_foldl (keepsApart_storeKey hdigest) ho]
  · rfl
  · intro w hw
    obtain ⟨r, hr, hwrite⟩ := List.mem_filterMap.mp hw
    obtain ⟨parts, htarget⟩ := target_of_write hwrite
    exact plain_of_target (hrs r hr) htarget

/-- The items below the namespace of an owner are those of its private store. -/
theorem prefix_namespaceOf_iff {o : StoreOwner} {parts : Namespace} {q : Namespace × List Char} :
    o.namespaceOf digest parts <+: q.1 ↔
      ∃ p, q = storeKey digest o p ∧ parts <+: p.1 := by
  constructor
  · rintro ⟨rest, hrest⟩
    refine ⟨(parts ++ rest, q.2), Prod.ext ?_ rfl, List.prefix_append _ _⟩
    rw [← hrest, storeKey, StoreOwner.namespaceOf, StoreOwner.namespaceOf, List.append_assoc]
  · rintro ⟨p, rfl, rest, hrest⟩
    refine ⟨rest, ?_⟩
    rw [storeKey, StoreOwner.namespaceOf, StoreOwner.namespaceOf, List.append_assoc, hrest]

end Isolation

section Samples

open ThreadStore

/-- A request of the user `subject` of the plain directory. -/
def storeRequest (subject : Char) (call : StoreCall) : StoreRequest :=
  ⟨.user (plainText 'i') (plainText subject) 0, plainGrants, plainGrants, call⟩

theorem storeRequest_regular (subject : Char) (call : StoreCall) :
    (storeRequest subject call).Regular plainDirectory where
  permissions := by
    constructor
    · rintro granted ⟨⟩
      exact plainGrants_claim_nothing
    · rintro granted ⟨⟩
      exact plainGrants_claim_nothing
  plain := by
    rintro a ⟨⟩
    have hnull : '\x00' ∉ (plainText 'i').val := by decide
    refine ⟨?_, fun h => by cases h⟩
    rintro i ⟨⟩
    exact hnull

end Samples

end CryptoAlert
