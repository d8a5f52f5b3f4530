import CryptoAlert.Auth.AgentPermissions
import CryptoAlert.Lib.Codec
import CryptoAlert.Lib.Transition

/-!
# Isolation of Agent Server threads

A thread is created with the authority of its creator in its metadata, and every other action
touches the threads whose metadata agree with the authority of the request. The server merges the
metadata of an update into those of the thread.
-/

namespace CryptoAlert

inductive MetadataValue where
  | text (s : List Char)
  | other (value : Json)

def MetadataValue.asText : MetadataValue → Option (List Char)
  | text s => some s
  | other _ => none

abbrev Metadata := String → Option MetadataValue

/-- The metadata that a client sends with a thread. -/
inductive SuppliedMetadata where
  | absent
  | object (metadata : Metadata)
  | other

/-- The supplied metadata as an object; `none` if they are something else. -/
def SuppliedMetadata.toObject : SuppliedMetadata → Option Metadata
  | absent => some fun _ => none
  | object metadata => some metadata
  | other => none

/-- `_THREAD_AUTHORITY_METADATA`. -/
def threadAuthorityMetadata : List String :=
  ["tenant_id", "workspace_id", "user_id", "identity_issuer", "context_id"]

/-- The authority that the handlers write into metadata and filters. -/
def authorityEntries (permissions : List Permission) (identity : Filled) :
    Option (List (String × List Char)) := do
  let tenantId ← tag permissions tenantTag
  let workspaceId ← tag permissions workspaceTag
  some ([("tenant_id", tenantId), ("workspace_id", workspaceId), ("user_id", identity.val)] ++
    ((tag permissions issuerTag).map fun issuer => ("identity_issuer", issuer)).toList ++
    ((tag permissions contextTag).map fun contextId => ("context_id", contextId)).toList)

def analysisRead : Permission := "analysis:read".toList

def analysisWrite : Permission := "analysis:write".toList

/-- `scope_thread_create`: the metadata that the handler leaves in the request. -/
def scopeThreadCreate (permissions : List Permission) (identity : Filled)
    (supplied : SuppliedMetadata) : Option Metadata := do
  guard (analysisWrite ∈ permissions)
  let entries ← authorityEntries permissions identity
  let preserved ← supplied.toObject
  some fun k =>
    if k ∈ threadAuthorityMetadata then (entries.lookup k).map .text else preserved k

inductive ThreadCall where
  | create (id : ℕ) (supplied : SuppliedMetadata)
  | read (id : ℕ)
  | search
  | createRun (id : ℕ)
  | update (id : ℕ) (body : Metadata)
  | delete (id : ℕ)

/-- The permission that an action requires. -/
def ThreadCall.required : ThreadCall → Permission
  | read _ | search => analysisRead
  | create _ _ | createRun _ | update _ _ | delete _ => analysisWrite

/-- `scope_thread_access`: the filter of an action. -/
def scopeThreadAccess (permissions : List Permission) (identity : Filled) (call : ThreadCall) :
    Option (List (String × List Char)) := do
  guard (call.required ∈ permissions)
  authorityEntries permissions identity

/-- Every key of the filter equals the metadata. -/
def agrees (filter : List (String × List Char)) (metadata : Metadata) : Bool :=
  filter.all fun (k, v) => (metadata k).bind MetadataValue.asText = some v

structure AgentThread where
  id : ℕ
  metadata : Metadata
  creator : AgentIdentity

/-- The threads of the server, and which identity has touched a thread of which creator. -/
structure ThreadStore where
  threads : List AgentThread
  touches : List (AgentIdentity × AgentIdentity)

/-- A request, with what memberships grant when it is authenticated and when it is handled. -/
structure ThreadRequest where
  token : AgentToken
  before : Grants
  now : Grants
  call : ThreadCall

/-- The threads that an action is about. -/
def ThreadCall.selects (call : ThreadCall) (t : AgentThread) : Bool :=
  match call with
  | create _ _ => false
  | search => true
  | read id | createRun id | update id _ | delete id => t.id = id

/-- What an action does to a thread that it touches; `none` if it deletes it. -/
def ThreadCall.rewrite (call : ThreadCall) (t : AgentThread) : Option AgentThread :=
  match call with
  | update _ body => some { t with metadata := fun k => (body k).or (t.metadata k) }
  | delete _ => none
  | create _ _ | read _ | search | createRun _ => some t

namespace ThreadStore

/-- The threads that an action touches under a filter. -/
def touched (s : ThreadStore) (call : ThreadCall) (filter : List (String × List Char)) :
    List AgentThread :=
  s.threads.filter fun t => call.selects t && agrees filter t.metadata

/-- One request; `none` if it is refused. -/
def step (directory : Directory) (s : ThreadStore) (r : ThreadRequest) : Option ThreadStore := do
  let a ← r.token.identity directory
  let user ← authenticate directory r.before r.token
  let permissions ← authorizedPermissions directory r.now user
  match r.call with
  | .create id supplied =>
      guard (∀ t ∈ s.threads, t.id ≠ id)
      let metadata ← scopeThreadCreate permissions user.identity supplied
      some { s with threads := s.threads ++ [⟨id, metadata, a⟩] }
  | call =>
      let filter ← scopeThreadAccess permissions user.identity call
      some {
        threads := s.threads.filterMap fun t =>
          if call.selects t && agrees filter t.metadata then call.rewrite t else some t
        touches := s.touches ++ (s.touched call filter).map fun t => (a, t.creator) }

end ThreadStore

/-- The authority of an identity under a key. -/
def AgentIdentity.authority (a : AgentIdentity) : String → Option (List Char)
  | "tenant_id" => some a.tenantId.val
  | "workspace_id" => some a.workspaceId.val
  | "user_id" => some a.subject.val
  | "identity_issuer" => a.contextId.map fun _ => a.issuer.val
  | "context_id" => a.contextId.map Uuid.text
  | _ => none

/-- The identities have tenant, workspace, subject and issuer in common. -/
structure AgentIdentity.SameParty (a b : AgentIdentity) : Prop where
  tenantId : a.tenantId = b.tenantId
  workspaceId : a.workspaceId = b.workspaceId
  subject : a.subject = b.subject
  issuer : a.issuer = b.issuer

namespace ThreadStore

/-- Threads keep the authority of their creators, and are touched by nobody else. -/
structure Isolated (s : ThreadStore) : Prop where
  authority : ∀ t ∈ s.threads, ∀ k ∈ threadAuthorityMetadata,
    t.metadata k = (t.creator.authority k).map .text
  touches : ∀ p ∈ s.touches, p.1.SameParty p.2

/-- No granted permission claims authority, an update brings no authority that the thread does not
have, and a service without a context meets no thread of another issuer in its scope. -/
structure Regular (directory : Directory) (s : ThreadStore) (r : ThreadRequest) : Prop where
  permissions : ClaimsNothing r.before r.now r.token
  update : ∀ id body, r.call = .update id body → ∀ t ∈ s.threads, t.id = id →
    ∀ k ∈ threadAuthorityMetadata, body k = none ∨ body k = t.metadata k
  service : ∀ a, r.token.identity directory = some a → a.contextId = none →
    ∀ t ∈ s.threads, r.call.selects t → t.creator.tenantId = a.tenantId →
      t.creator.workspaceId = a.workspaceId → t.creator.subject = a.subject →
      t.creator.issuer = a.issuer

variable {directory : Directory} {s s' : ThreadStore} {r : ThreadRequest} {a : AgentIdentity}
  {permissions : List Permission}

/-- The entries of permissions that carry an identity are its authority. -/
theorem authorityEntries_eq (h : Carries permissions a) :
    authorityEntries permissions a.subject =
      some ([("tenant_id", a.tenantId.val), ("workspace_id", a.workspaceId.val),
        ("user_id", a.subject.val)] ++ match a.contextId with
          | some contextId =>
              [("identity_issuer", a.issuer.val), ("context_id", contextId.text)]
          | none => []) := by
  rw [authorityEntries, h.tenant, h.workspace, h.issuer, h.context]
  cases a.contextId with
  | none => rfl
  | some contextId => rfl

theorem lookup_entries {entries : List (String × List Char)} (h : Carries permissions a)
    (hentries : authorityEntries permissions a.subject = some entries) :
    ∀ k ∈ threadAuthorityMetadata, entries.lookup k = a.authority k := by
  rw [authorityEntries_eq h] at hentries
  rw [← Option.some.inj hentries]
  simp only [threadAuthorityMetadata, List.forall_mem_cons]
  cases hcontext : a.contextId with
  | none =>
      refine ⟨rfl, rfl, rfl, ?_, ?_, fun _ h => absurd h List.not_mem_nil⟩
      · simp [AgentIdentity.authority, hcontext, List.lookup_cons]
      · simp [AgentIdentity.authority, hcontext, List.lookup_cons]
  | some contextId =>
      refine ⟨rfl, rfl, rfl, ?_, ?_, fun _ h => absurd h List.not_mem_nil⟩
      · simp [AgentIdentity.authority, hcontext, List.lookup_cons]
      · simp [AgentIdentity.authority, hcontext, List.lookup_cons]

/-- A thread that the filter lets through belongs to the party of the request. -/
theorem sameParty_of_agrees {entries : List (String × List Char)} {t : AgentThread}
    (h : Carries permissions a) (hentries : authorityEntries permissions a.subject = some entries)
    (hauthority : ∀ k ∈ threadAuthorityMetadata,
      t.metadata k = (t.creator.authority k).map .text)
    (hservice : a.contextId = none → t.creator.tenantId = a.tenantId →
      t.creator.workspaceId = a.workspaceId → t.creator.subject = a.subject →
      t.creator.issuer = a.issuer)
    (hagrees : agrees entries t.metadata = true) : a.SameParty t.creator := by
  have hread : ∀ k ∈ threadAuthorityMetadata, ∀ v, (k, v) ∈ entries →
      t.creator.authority k = some v := by
    intro k hk v hv
    have hmatch := of_decide_eq_true (List.all_eq_true.mp hagrees (k, v) hv)
    rw [hauthority k hk] at hmatch
    cases hauth : t.creator.authority k with
    | none => simp [hauth] at hmatch
    | some w =>
        rw [hauth] at hmatch
        exact hmatch
  rw [authorityEntries_eq h] at hentries
  have hentry := Option.some.inj hentries
  have htenant : t.creator.tenantId = a.tenantId := by
    have hv := hread "tenant_id" (by decide) a.tenantId.val (by rw [← hentry]; simp)
    exact Subtype.ext (Option.some.inj hv)
  have hworkspace : t.creator.workspaceId = a.workspaceId := by
    have hv := hread "workspace_id" (by decide) a.workspaceId.val (by rw [← hentry]; simp)
    exact Subtype.ext (Option.some.inj hv)
  have hsubject : t.creator.subject = a.subject := by
    have hv := hread "user_id" (by decide) a.subject.val (by rw [← hentry]; simp)
    exact Subtype.ext (Option.some.inj hv)
  have hissuer : t.creator.issuer = a.issuer := by
    cases hcontext : a.contextId with
    | none => exact hservice hcontext htenant hworkspace hsubject
    | some contextId =>
        have hv := hread "identity_issuer" (by decide) a.issuer.val
          (by rw [← hentry, hcontext]; simp)
        obtain ⟨_, -, hv⟩ := Option.map_eq_some_iff.mp hv
        exact Subtype.ext hv
  exact ⟨htenant.symm, hworkspace.symm, hsubject.symm, hissuer.symm⟩

/-- What a request that is not refused does. -/
theorem step_cases (h : s.step directory r = some s') :
    ∃ a user permissions, r.token.identity directory = some a ∧
      authenticate directory r.before r.token = some user ∧
      authorizedPermissions directory r.now user = some permissions ∧
      ((∃ id supplied metadata, r.call = .create id supplied ∧
          scopeThreadCreate permissions user.identity supplied = some metadata ∧
          s' = { s with threads := s.threads ++ [⟨id, metadata, a⟩] }) ∨
        ∃ filter, authorityEntries permissions user.identity = some filter ∧
          s'.threads = s.threads.filterMap (fun t =>
            if r.call.selects t && agrees filter t.metadata then r.call.rewrite t else some t) ∧
          s'.touches = s.touches ++ (s.touched r.call filter).map fun t => (a, t.creator)) := by
  obtain ⟨a, ha, h₁⟩ := Option.bind_eq_some_iff.mp h
  obtain ⟨user, huser, h₂⟩ := Option.bind_eq_some_iff.mp h₁
  obtain ⟨permissions, hpermissions, h₃⟩ := Option.bind_eq_some_iff.mp h₂
  refine ⟨a, user, permissions, ha, huser, hpermissions, ?_⟩
  have haccess : ∀ {call : ThreadCall}, r.call = call → (do
      let filter ← scopeThreadAccess permissions user.identity call
      some (⟨s.threads.filterMap fun t =>
        if call.selects t && agrees filter t.metadata then call.rewrite t else some t,
        s.touches ++ (s.touched call filter).map fun t => (a, t.creator)⟩ : ThreadStore)) =
      some s' → ∃ filter, authorityEntries permissions user.identity = some filter ∧
        s'.threads = s.threads.filterMap (fun t =>
          if r.call.selects t && agrees filter t.metadata then r.call.rewrite t else some t) ∧
        s'.touches = s.touches ++ (s.touched r.call filter).map fun t => (a, t.creator) := by
    intro call hcall h
    obtain ⟨filter, hfilter, hs'⟩ := Option.bind_eq_some_iff.mp h
    obtain ⟨_, -, hentries⟩ := Option.bind_eq_some_iff.mp hfilter
    rw [← Option.some.inj hs', hcall]
    exact ⟨filter, hentries, rfl, rfl⟩
  cases hcall : r.call with
  | create id supplied =>
      left
      simp only [hcall] at h₃
      obtain ⟨_, -, h₄⟩ := Option.bind_eq_some_iff.mp h₃
      obtain ⟨metadata, hmetadata, hs'⟩ := Option.bind_eq_some_iff.mp h₄
      exact ⟨id, supplied, metadata, rfl, hmetadata, (Option.some.inj hs').symm⟩
  | read id | search | createRun id | update id body | delete id =>
      right
      simp only [hcall] at h₃
      have hdone := haccess hcall h₃
      rwa [hcall] at hdone

/-- The metadata of a new thread are the authority of its creator. -/
theorem authority_create {metadata : Metadata} {supplied : SuppliedMetadata}
    (h : Carries permissions a)
    (hcreate : scopeThreadCreate permissions a.subject supplied = some metadata) :
    ∀ k ∈ threadAuthorityMetadata, metadata k = (a.authority k).map .text := by
  obtain ⟨_, -, h₁⟩ := Option.bind_eq_some_iff.mp hcreate
  obtain ⟨entries, hentries, h₂⟩ := Option.bind_eq_some_iff.mp h₁
  obtain ⟨preserved, -, hmetadata⟩ := Option.bind_eq_some_iff.mp h₂
  intro k hk
  rw [← Option.some.inj hmetadata]
  simp only [if_pos hk, lookup_entries h hentries k hk]

/-- Rewriting keeps the creator and, where the update is regular, the authority. -/
theorem authority_rewrite {t t' : AgentThread} (hr : Regular directory s r) (ht : t ∈ s.threads)
    (hselects : r.call.selects t = true) (h : r.call.rewrite t = some t') :
    t'.creator = t.creator ∧ ∀ k ∈ threadAuthorityMetadata, t'.metadata k = t.metadata k := by
  cases hcall : r.call with
  | update id body =>
      rw [hcall] at h hselects
      cases h
      refine ⟨rfl, fun k hk => ?_⟩
      have hid : t.id = id := of_decide_eq_true hselects
      obtain hnone | hsame := hr.update id body hcall t ht hid k hk
      · simp only [hnone, Option.none_or]
      · simp only [hsame, Option.or_self]
  | delete id =>
      rw [hcall] at h
      cases h
  | create id supplied | read id | search | createRun id =>
      rw [hcall] at h
      cases h
      exact ⟨rfl, fun _ _ => rfl⟩

theorem Isolated.step (hs : s.Isolated) (hr : Regular directory s r)
    (h : s.step directory r = some s') : s'.Isolated := by
  obtain ⟨a, user, permissions, ha, huser, hpermissions, hcases⟩ := step_cases h
  obtain ⟨hcarries, hidentity⟩ := carries_authorized hr.permissions huser ha hpermissions
  obtain ⟨id, supplied, metadata, -, hmetadata, rfl⟩ | ⟨filter, hfilter, hthreads, htouches⟩ :=
    hcases
  · rw [hidentity] at hmetadata
    constructor
    · intro t ht
      rcases List.mem_append.mp ht with hold | hnew
      · exact hs.authority t hold
      · rw [List.mem_singleton.mp hnew]
        exact authority_create hcarries hmetadata
    · exact hs.touches
  · rw [hidentity] at hfilter
    constructor
    · intro t' ht'
      rw [hthreads] at ht'
      obtain ⟨t, ht, hmap⟩ := List.mem_filterMap.mp ht'
      by_cases htouched : (r.call.selects t && agrees filter t.metadata) = true
      · rw [if_pos htouched] at hmap
        obtain ⟨hselects, -⟩ := Bool.and_eq_true_iff.mp htouched
        obtain ⟨hcreator, hkept⟩ := authority_rewrite hr ht hselects hmap
        intro k hk
        rw [hkept k hk, hcreator]
        exact hs.authority t ht k hk
      · rw [if_neg htouched] at hmap
        rw [← Option.some.inj hmap]
        exact hs.authority t ht
    · intro p hp
      rw [htouches] at hp
      rcases List.mem_append.mp hp with hold | hnew
      · exact hs.touches p hold
      · obtain ⟨t, ht, rfl⟩ := List.mem_map.mp hnew
        obtain ⟨hmem, hmatch⟩ := List.mem_filter.mp ht
        obtain ⟨hselects, hagrees⟩ := Bool.and_eq_true_iff.mp hmatch
        exact sameParty_of_agrees hcarries hfilter (hs.authority t hmem)
          (fun hcontext => hr.service a ha hcontext t hmem hselects) hagrees

/-- In a run of regular requests threads keep their authority and nobody touches the threads of
another party. -/
theorem threads_isolated
    (h : Reaches (step directory) (Regular directory) ⟨[], []⟩ s) : s.Isolated :=
  h.invariant (I := Isolated) (fun _ _ _ hr hs hstep => hs.step hr hstep)
    ⟨fun _ h => absurd h List.not_mem_nil, fun _ h => absurd h List.not_mem_nil⟩

section Samples

def plainText (c : Char) : Filled := ⟨[c], List.cons_ne_nil _ _⟩

/-- Every membership lies in one workspace. -/
def plainDirectory : Directory := fun _ _ _ => some ⟨plainText 't', plainText 'w'⟩

def plainGrants : Grants := fun _ _ _ => some [analysisRead, analysisWrite]

def plainRequest (call : ThreadCall) : ThreadRequest :=
  ⟨.user (plainText 'i') (plainText 's') 0, plainGrants, plainGrants, call⟩

theorem plainGrants_claim_nothing : ∀ p ∈ [analysisRead, analysisWrite], ¬ ClaimsAuthority p := by
  have hnone : ∀ p ∈ [analysisRead, analysisWrite],
      ∀ pre ∈ [tenantTag, workspaceTag, issuerTag, contextTag], ¬ pre <+: p := by decide +kernel
  rintro p hp ⟨pre, hpre, hprefix, -⟩
  exact hnone p hp pre hpre hprefix

/-- A user creates a thread and reads it. -/
theorem threads_isolated_read :
    ∃ s : ThreadStore, Reaches (step plainDirectory) (Regular plainDirectory) ⟨[], []⟩ s ∧
      s.touches.length = 1 ∧ s.Isolated := by
  have hany : ((step plainDirectory ⟨[], []⟩ (plainRequest (.create 0 .absent))).bind
      fun s => step plainDirectory s (plainRequest (.read 0))).any
      (fun s => s.touches.length = 1) = true := by decide +kernel
  obtain ⟨s, hrun, hone⟩ := (Option.any_eq_true _ _).mp hany
  obtain ⟨s₁, hcreate, hread⟩ := Option.bind_eq_some_iff.mp hrun
  have hregular : ∀ s call, (∀ id body, call ≠ .update id body) →
      Regular plainDirectory s (plainRequest call) := by
    intro s call hcall
    constructor
    · constructor
      · rintro granted ⟨⟩
        exact plainGrants_claim_nothing
      · rintro granted ⟨⟩
        exact plainGrants_claim_nothing
    · intro id body h
      exact absurd h (hcall id body)
    · rintro a ⟨⟩ hcontext
      cases hcontext
  have hreach := (Reaches.refl.tail _ (hregular _ _ (by rintro id body ⟨⟩)) hcreate).tail _
    (hregular _ _ (by rintro id body ⟨⟩)) hread
  exact ⟨s, hreach, of_decide_eq_true hone, threads_isolated hreach⟩

/-- An update that carries a tenant moves the thread into it. -/
theorem authority_overwritten :
    ∃ s, Reaches (step plainDirectory) anyStep ⟨[], []⟩ s ∧ ¬ s.Isolated := by
  have hany : (runLabels (step plainDirectory) ⟨[], []⟩
      [plainRequest (.create 0 .absent), plainRequest (.update 0 fun _ => some (.text ['x']))]).any
      (fun s => s.threads.any fun t =>
        (t.metadata "tenant_id").bind MetadataValue.asText ≠ t.creator.authority "tenant_id") =
      true := by decide +kernel
  obtain ⟨s, hrun, hthread⟩ := (Option.any_eq_true _ _).mp hany
  refine ⟨s, reaches_of_runLabels _ hrun, fun hisolated => ?_⟩
  obtain ⟨t, ht, hne⟩ := List.any_eq_true.mp hthread
  have hsame := hisolated.authority t ht "tenant_id" (by decide)
  rw [hsame] at hne
  exact of_decide_eq_true hne rfl

end Samples

end ThreadStore

end CryptoAlert
