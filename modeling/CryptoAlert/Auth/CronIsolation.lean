import CryptoAlert.Auth.ThreadIsolation

/-!
# Isolation of Agent Server crons

A cron is a monitor's schedule. The handlers accept a request only if its payload holds nothing
but the references of a monitor, and write the authority of the request over the metadata that
came with it, also where a cron is updated. The server merges the metadata of an update into those
of the cron, and lets an action touch the crons whose metadata agree with the filter.
-/

namespace CryptoAlert

/-- A value in a cron request, as far as the handlers tell values apart. -/
inductive CronValue where
  | null
  | text (s : List Char)
  | texts (l : List (List Char))
  | int (n : ℤ)
  | object (fields : List (String × CronValue))
  | other (tag : ℕ)

abbrev CronFields := List (String × CronValue)

def CronValue.asText : CronValue → Option (List Char)
  | text s => some s
  | _ => none

def CronValue.asObject : CronValue → Option CronFields
  | object fields => some fields
  | _ => none

/-- A key with nothing behind it but null or an empty object. -/
def CronValue.isEmpty : CronValue → Bool
  | null | object [] => true
  | _ => false

/-- Every key of the object is allowed. -/
def CronFields.within (fields : CronFields) (allowed : List String) : Bool :=
  fields.all fun (k, _) => allowed.contains k

/-- `payload.get(key)`, where a key that is missing and null are the same. -/
def CronFields.get (fields : CronFields) (key : String) : CronValue :=
  (fields.lookup key).getD .null

/-- Texts as the values of an object. -/
def CronFields.ofTexts (entries : List (String × List Char)) : CronFields :=
  entries.map fun (k, v) => (k, .text v)

/-- What `MonitorIngressRequest` holds. -/
structure MonitorReference where
  monitorId : Uuid
  scheduleVersion : {n : ℤ // 1 ≤ n}
  cronBindingId : Uuid

namespace MonitorReference

/-- `reference_metadata`. -/
def metadata (m : MonitorReference) : CronFields :=
  [("monitor_id", .text m.monitorId.text), ("schedule_version", .int m.scheduleVersion.val),
    ("cron_binding_id", .text m.cronBindingId.text)]

def version? : CronValue → Option {n : ℤ // 1 ≤ n}
  | .int n => if h : 1 ≤ n then some ⟨n, h⟩ else none
  | _ => none

/-- `MonitorIngressRequest.model_validate`; `none` where it raises. -/
def validate (request : CronFields) : Option MonitorReference := do
  guard (request.within ["task_type", "monitor_id", "schedule_version", "cron_binding_id"] = true)
  match request.lookup "task_type" with
  | none => some ()
  | some value => guard (value.asText = some "monitor_ingress".toList)
  let monitorId ← (request.lookup "monitor_id").bind CronValue.asText
  let monitorId ← Uuid.ofText monitorId
  let scheduleVersion ← (request.lookup "schedule_version").bind version?
  let cronBindingId ← (request.lookup "cron_binding_id").bind CronValue.asText
  let cronBindingId ← Uuid.ofText cronBindingId
  some ⟨monitorId, scheduleVersion, cronBindingId⟩

end MonitorReference

/-- `_CRON_REFERENCE_METADATA`. -/
def cronReferenceMetadata : List String := ["monitor_id", "schedule_version", "cron_binding_id"]

/-- `_CRON_UPDATE_PAYLOAD_FIELDS`. -/
def cronUpdatePayloadFields : List String :=
  ["config", "schedule", "input", "metadata", "enabled", "timezone", "end_time", "stream_mode",
    "stream_subgraphs", "stream_resumable", "durability", "checkpoint_during", "interrupt_before",
    "interrupt_after", "on_run_completed", "multitask_strategy", "context", "webhook"]

/-- `_CRON_CREATE_PAYLOAD_FIELDS`. -/
def cronCreatePayloadFields : List String := "assistant_id" :: cronUpdatePayloadFields

/-- `_CRON_CALLBACK_ENVELOPE_FIELDS`. -/
def cronCallbackEnvelopeFields : List String := ["cron_id", "user_id"]

/-- The values are of one type and equal. -/
def CronValue.sameReference : CronValue → CronValue → Bool
  | text s, text t => s = t
  | int m, int n => m = n
  | _, _ => false

section Handlers

variable (shown : CronValue → List Char) (permissions : List Permission) (identity : Filled)

/-- `_cron_authority`. -/
def cronAuthority : Option (List (String × List Char)) := do
  guard ((tag permissions issuerTag).isSome = (tag permissions contextTag).isSome)
  authorityEntries permissions identity

/-- `_scope_monitor_cron_payload`: the metadata that it leaves in the payload. -/
def scopeMonitorCronPayload (payload : CronFields) (authority : List (String × List Char)) :
    Option CronFields := do
  let input ← (payload.get "input").asObject
  guard (input ≠ [] ∧ input.within ["request"] = true)
  let request ← (input.get "request").asObject
  let reference ← MonitorReference.validate request
  let metadata ← (payload.get "metadata").asObject
  guard (cronReferenceMetadata.all fun k => (metadata.lookup k).isSome)
  guard (metadata.within (cronReferenceMetadata ++ threadAuthorityMetadata) = true)
  guard (reference.metadata.all fun (k, expected) => (metadata.get k).sameReference expected)
  some (reference.metadata ++ CronFields.ofTexts authority)

/-- `_cron_callback_payload`; the inner option is the payload. -/
def cronCallbackPayload (value : CronFields) (allowed : List String) (required : Bool) :
    Option (Option CronFields) :=
  match value.lookup "payload" with
  | some payload =>
      match payload with
      | .null => if required then none else some none
      | .object fields => if CronFields.within fields allowed then some (some fields) else none
      | _ => none
  | none =>
      if value.within (allowed ++ cronCallbackEnvelopeFields) then some (some value) else none

/-- `_require_empty_cron_channels`. -/
def requireEmptyCronChannels (payload : CronFields) : Bool :=
  (payload.get "context").isEmpty && (payload.get "webhook").isEmpty

/-- The `configurable` of a payload; `none` where the configuration is refused or not an object. -/
def configurableOf (payload : CronFields) : Option CronFields :=
  match payload.get "config" with
  | .null => some []
  | .object config =>
      if CronFields.within config ["configurable"] then
        match CronFields.get config "configurable" with
        | .null => some []
        | .object configurable =>
            if CronFields.within configurable ["cron_id"] then some configurable else none
        | _ => none
      else none
  | _ => none

/-- `_require_server_cron_config`: the `configurable` that is let through. -/
def requireServerCronConfig (payload : CronFields) (cronId : CronValue) : Option CronFields := do
  let configurable ← configurableOf payload
  match configurable.get "cron_id" with
  | .null => some configurable
  | configured =>
      match cronId with
      | .null => none
      | cronId => if shown configured = shown cronId then some configurable else none

/-- `_bind_cron_run_permissions`. -/
def bindCronRunPermissions (configurable : CronFields) : CronFields :=
  ("langgraph_auth_permissions", .texts permissions) ::
    configurable.filter fun (k, _) => k ≠ "langgraph_auth_permissions"

/-- What a handler leaves of a request that changes a cron. -/
structure ScopedCron where
  filter : List (String × List Char)
  metadata : Option CronFields
  configurable : CronFields

/-- `scope_cron_create`. -/
def scopeCronCreate (value : CronFields) : Option ScopedCron := do
  guard (analysisWrite ∈ permissions)
  let authority ← cronAuthority permissions identity
  let found ← cronCallbackPayload value cronCreatePayloadFields true
  let payload ← found
  let configurable ← requireServerCronConfig shown payload (value.get "cron_id")
  guard (requireEmptyCronChannels payload = true)
  let metadata ← scopeMonitorCronPayload payload authority
  some ⟨authority, some metadata, bindCronRunPermissions permissions configurable⟩

/-- `scope_cron_update`. -/
def scopeCronUpdate (value : CronFields) : Option ScopedCron := do
  guard (analysisWrite ∈ permissions)
  let authority ← cronAuthority permissions identity
  match ← cronCallbackPayload value cronUpdatePayloadFields false with
  | none => some ⟨authority, none, []⟩
  | some payload =>
      let configurable ← requireServerCronConfig shown payload (value.get "cron_id")
      guard (requireEmptyCronChannels payload = true)
      guard ((payload.lookup "input").isSome = (payload.lookup "metadata").isSome)
      if (payload.lookup "input").isSome then
        let metadata ← scopeMonitorCronPayload payload authority
        some ⟨authority, some metadata, configurable⟩
      else some ⟨authority, none, configurable⟩

end Handlers

abbrev CronMetadata := String → Option CronValue

structure AgentCron where
  id : ℕ
  metadata : CronMetadata
  creator : AgentIdentity

/-- The crons of the server, which identity has touched a cron of which creator, and the run
permissions that the requests which were let through hand over. -/
structure CronStore where
  crons : List AgentCron
  touches : List (AgentIdentity × AgentIdentity)
  bound : List (AgentIdentity × CronValue)

inductive CronCall where
  | create (id : ℕ) (value : CronFields)
  | read (id : ℕ)
  | search
  | update (id : ℕ) (value : CronFields)
  | delete (id : ℕ)

/-- A request, with what memberships grant when it is authenticated and when it is handled. -/
structure CronRequest where
  token : AgentToken
  before : Grants
  now : Grants
  call : CronCall

/-- Every key of the filter equals the metadata. -/
def cronAgrees (filter : List (String × List Char)) (metadata : CronMetadata) : Bool :=
  filter.all fun (k, v) => (metadata k).bind CronValue.asText = some v

/-- `_cron_access_filter`. -/
def cronAccessFilter (permissions : List Permission) (identity : Filled) (required : Permission) :
    Option (List (String × List Char)) := do
  guard (required ∈ permissions)
  cronAuthority permissions identity

/-- Merges the metadata of an update. -/
def AgentCron.merge (c : AgentCron) (metadata : Option CronFields) : AgentCron :=
  { c with metadata := fun k => (metadata.bind (List.lookup k)).or (c.metadata k) }

/-- The run permissions that a request hands to the server. -/
def ScopedCron.bound (kept : ScopedCron) (a : AgentIdentity) : List (AgentIdentity × CronValue) :=
  (kept.configurable.lookup "langgraph_auth_permissions").toList.map fun v => (a, v)

namespace CronStore

variable (shown : CronValue → List Char) (directory : Directory)

/-- The crons that a filter lets a request touch. -/
def touched (s : CronStore) (filter : List (String × List Char)) (selects : AgentCron → Bool) :
    List AgentCron :=
  s.crons.filter fun c => selects c && cronAgrees filter c.metadata

/-- The store after an action that touches crons. -/
def touch (s : CronStore) (a : AgentIdentity) (filter : List (String × List Char))
    (selects : AgentCron → Bool) (rewrite : AgentCron → Option AgentCron) : CronStore :=
  { s with
    crons := s.crons.filterMap fun c =>
      if selects c && cronAgrees filter c.metadata then rewrite c else some c
    touches := s.touches ++ (s.touched filter selects).map fun c => (a, c.creator) }

/-- One request; `none` if it is refused. -/
def step (s : CronStore) (r : CronRequest) : Option CronStore := do
  let a ← r.token.identity directory
  let user ← authenticate directory r.before r.token
  let permissions ← authorizedPermissions directory r.now user
  match r.call with
  | .create id value =>
      guard (∀ c ∈ s.crons, c.id ≠ id)
      let kept ← scopeCronCreate shown permissions user.identity value
      some { s with
        crons := s.crons ++ [⟨id, fun k => kept.metadata.bind (List.lookup k), a⟩]
        bound := s.bound ++ kept.bound a }
  | .update id value =>
      let kept ← scopeCronUpdate shown permissions user.identity value
      some { s.touch a kept.filter (fun c => c.id = id) (fun c => some (c.merge kept.metadata)) with
        bound := s.bound ++ kept.bound a }
  | .read id =>
      let filter ← cronAccessFilter permissions user.identity analysisRead
      some (s.touch a filter (fun c => c.id = id) some)
  | .search =>
      let filter ← cronAccessFilter permissions user.identity analysisRead
      some (s.touch a filter (fun _ => true) some)
  | .delete id =>
      let filter ← cronAccessFilter permissions user.identity analysisWrite
      some (s.touch a filter (fun c => c.id = id) fun _ => none)

end CronStore

/-- The authority of an identity as metadata. -/
def AgentIdentity.entries (a : AgentIdentity) : List (String × List Char) :=
  [("tenant_id", a.tenantId.val), ("workspace_id", a.workspaceId.val),
    ("user_id", a.subject.val)] ++ match a.contextId with
      | some contextId => [("identity_issuer", a.issuer.val), ("context_id", contextId.text)]
      | none => []

/-- The identity may act for the other: they are one subject of one workspace, and an identity
in a context acts for itself alone. -/
structure AgentIdentity.ActsFor (a b : AgentIdentity) : Prop where
  tenantId : a.tenantId = b.tenantId
  workspaceId : a.workspaceId = b.workspaceId
  subject : a.subject = b.subject
  context : ∀ contextId, a.contextId = some contextId →
    b.contextId = some contextId ∧ a.issuer = b.issuer

/-- The metadata of a cron of the identity. -/
def MonitorReference.owned (m : MonitorReference) (a : AgentIdentity) : CronFields :=
  m.metadata ++ CronFields.ofTexts a.entries

namespace CronStore

/-- Crons hold the references of a monitor and the authority of their creators and nothing else,
they are touched on behalf of their creators alone, and the permissions of their runs are those of
the identity that asked for them. -/
structure Isolated (s : CronStore) : Prop where
  metadata : ∀ c ∈ s.crons, ∃ m : MonitorReference,
    ∀ k, c.metadata k = (m.owned c.creator).lookup k
  touches : ∀ p ∈ s.touches, p.1.ActsFor p.2
  bound : ∀ p ∈ s.bound, ∃ permissions, p.2 = .texts permissions ∧ Carries permissions p.1 ∧
    analysisWrite ∈ permissions

/-- No granted permission claims authority. -/
def Regular (r : CronRequest) : Prop := ClaimsNothing r.before r.now r.token

end CronStore

section Isolation

variable {shown : CronValue → List Char} {directory : Directory} {permissions : List Permission}
  {a : AgentIdentity} {payload value : CronFields}

theorem cronAuthority_eq (h : Carries permissions a) :
    cronAuthority permissions a.subject = some a.entries := by
  have hparity : (tag permissions issuerTag).isSome = (tag permissions contextTag).isSome := by
    rw [h.issuer, h.context, Option.isSome_map, Option.isSome_map]
  have hguard : (guard ((tag permissions issuerTag).isSome = (tag permissions contextTag).isSome) :
      Option Unit) = some () := (Option.guard_eq_some' _).mpr hparity
  rw [cronAuthority, hguard, ThreadStore.authorityEntries_eq h]
  rfl

theorem scopeMonitorCronPayload_eq {authority : List (String × List Char)} {metadata : CronFields}
    (h : scopeMonitorCronPayload payload authority = some metadata) :
    ∃ m : MonitorReference, metadata = m.metadata ++ CronFields.ofTexts authority := by
  simp only [scopeMonitorCronPayload, Option.bind_eq_bind, Option.bind_eq_some_iff] at h
  obtain ⟨_, -, _, -, _, -, reference, -, _, -, _, -, _, -, _, -, h⟩ := h
  exact ⟨reference, (Option.some.inj h).symm⟩

theorem lookup_within {fields : CronFields} {allowed : List String} {k : String}
    (h : fields.within allowed = true) (hk : k ∉ allowed) : fields.lookup k = none := by
  rw [List.lookup_eq_none_iff]
  intro p hp
  have hmem := List.all_eq_true.mp h p hp
  rw [List.contains_iff_mem] at hmem
  rw [bne_iff_ne]
  rintro rfl
  exact hk hmem

theorem configurableOf_within {configurable : CronFields}
    (h : configurableOf payload = some configurable) : configurable.within ["cron_id"] = true := by
  unfold configurableOf at h
  split at h
  · cases h
    rfl
  · split_ifs at h
    split at h
    · cases h
      rfl
    · split_ifs at h with hwithin
      cases h
      exact hwithin
    · cases h
  · cases h

/-- What is let through of a configuration carries no permissions. -/
theorem configurable_clean {cronId : CronValue} {configurable : CronFields}
    (h : requireServerCronConfig shown payload cronId = some configurable) :
    configurable.lookup "langgraph_auth_permissions" = none := by
  obtain ⟨found, hfound, h⟩ := Option.bind_eq_some_iff.mp h
  have hclean := lookup_within (configurableOf_within hfound)
    (by decide : "langgraph_auth_permissions" ∉ ["cron_id"])
  split at h
  · cases h
    exact hclean
  · split at h
    · cases h
    · split_ifs at h
      cases h
      exact hclean

/-- A cron is created with the authority of its creator and with its permissions. -/
theorem scopeCronCreate_cases (hcarries : Carries permissions a) {kept : ScopedCron}
    (h : scopeCronCreate shown permissions a.subject value = some kept) :
    (∃ m : MonitorReference, kept.metadata = some (m.owned a)) ∧
      kept.configurable.lookup "langgraph_auth_permissions" = some (.texts permissions) ∧
      analysisWrite ∈ permissions := by
  simp only [scopeCronCreate, Option.bind_eq_bind, Option.bind_eq_some_iff] at h
  obtain ⟨_, hwrite, authority, hauthority, _, -, payload, -, configurable, -, _, -, metadata,
    hmetadata, h⟩ := h
  cases h
  rw [cronAuthority_eq hcarries] at hauthority
  cases hauthority
  obtain ⟨m, rfl⟩ := scopeMonitorCronPayload_eq hmetadata
  exact ⟨⟨m, rfl⟩, by rw [bindCronRunPermissions, List.lookup_cons_self],
    (Option.guard_eq_some' _).mp hwrite⟩

/-- An update is filtered by the authority of the request, and brings no other. -/
theorem scopeCronUpdate_cases (hcarries : Carries permissions a) {kept : ScopedCron}
    (h : scopeCronUpdate shown permissions a.subject value = some kept) :
    kept.filter = a.entries ∧
      (kept.metadata = none ∨ ∃ m : MonitorReference, kept.metadata = some (m.owned a)) ∧
      kept.configurable.lookup "langgraph_auth_permissions" = none := by
  simp only [scopeCronUpdate, Option.bind_eq_bind, Option.bind_eq_some_iff] at h
  obtain ⟨_, -, authority, hauthority, found, -, h⟩ := h
  rw [cronAuthority_eq hcarries] at hauthority
  cases hauthority
  cases found with
  | none =>
      cases h
      exact ⟨rfl, .inl rfl, rfl⟩
  | some payload =>
      simp only [Option.bind_eq_some_iff] at h
      obtain ⟨configurable, hconfigurable, _, -, _, -, h⟩ := h
      have hclean := configurable_clean hconfigurable
      split_ifs at h with hinput
      · obtain ⟨metadata, hmetadata, h⟩ := Option.bind_eq_some_iff.mp h
        cases h
        obtain ⟨m, rfl⟩ := scopeMonitorCronPayload_eq hmetadata
        exact ⟨rfl, .inr ⟨m, rfl⟩, hclean⟩
      · cases h
        exact ⟨rfl, .inl rfl, hclean⟩

theorem lookup_entries (k : String) : a.entries.lookup k = a.authority k := by
  symm
  unfold AgentIdentity.authority
  split
  · rfl
  · rfl
  · rfl
  · rw [AgentIdentity.entries]
    cases a.contextId <;> rfl
  · rw [AgentIdentity.entries]
    cases a.contextId <;> rfl
  · rename_i htenant hworkspace huser hissuer hcontext
    refine (List.lookup_eq_none_iff.mpr ?_).symm
    rw [AgentIdentity.entries]
    cases a.contextId with
    | none =>
        simp only [List.cons_append, List.nil_append, List.forall_mem_cons, bne_iff_ne]
        exact ⟨htenant, hworkspace, huser, fun _ h => absurd h List.not_mem_nil⟩
    | some contextId =>
        simp only [List.cons_append, List.nil_append, List.forall_mem_cons, bne_iff_ne]
        exact ⟨htenant, hworkspace, huser, hissuer, hcontext, fun _ h => absurd h List.not_mem_nil⟩

theorem lookup_ofTexts (entries : List (String × List Char)) (k : String) :
    (CronFields.ofTexts entries).lookup k = (entries.lookup k).map .text := by
  induction entries with
  | nil => rfl
  | cons e entries ih =>
      rw [CronFields.ofTexts] at ih ⊢
      rw [List.map_cons, List.lookup_cons, List.lookup_cons, ih]
      cases k == e.1 <;> rfl

theorem lookup_owned (m : MonitorReference) (k : String) :
    (m.owned a).lookup k = (m.metadata.lookup k).or ((a.authority k).map .text) := by
  rw [MonitorReference.owned, List.lookup_append, lookup_ofTexts, lookup_entries]

/-- The references of two monitors have the same keys. -/
theorem lookup_metadata_none {m : MonitorReference} (m' : MonitorReference) {k : String}
    (h : m.metadata.lookup k = none) : m'.metadata.lookup k = none := by
  rw [List.lookup_eq_none_iff] at h ⊢
  simp only [MonitorReference.metadata, List.forall_mem_cons] at h ⊢
  exact ⟨h.1, h.2.1, h.2.2.1, fun _ hp => absurd hp List.not_mem_nil⟩

variable {b : AgentIdentity}

/-- Who acts for another has no authority that the other does not have. -/
theorem AgentIdentity.ActsFor.authority (h : a.ActsFor b) (k : String) :
    a.authority k = none ∨ a.authority k = b.authority k := by
  unfold AgentIdentity.authority
  split
  · exact .inr (by rw [h.tenantId])
  · exact .inr (by rw [h.workspaceId])
  · exact .inr (by rw [h.subject])
  · cases hcontext : a.contextId with
    | none => exact .inl rfl
    | some contextId =>
        obtain ⟨hsame, hissuer⟩ := h.context contextId hcontext
        exact .inr (by rw [hsame, hissuer])
  · cases hcontext : a.contextId with
    | none => exact .inl rfl
    | some contextId =>
        obtain ⟨hsame, -⟩ := h.context contextId hcontext
        exact .inr (by rw [hsame])
  · exact .inl rfl

/-- Merging the metadata of an update leaves a cron its creator's. -/
theorem merge_owned (h : a.ActsFor b) (m m' : MonitorReference) (k : String) :
    ((m.owned a).lookup k).or ((m'.owned b).lookup k) = (m.owned b).lookup k := by
  simp only [lookup_owned]
  cases hm : m.metadata.lookup k with
  | some v => rfl
  | none =>
      rw [lookup_metadata_none m' hm]
      rcases h.authority k with hnone | hsame
      · rw [hnone]
        rfl
      · rw [hsame]
        simp only [Option.none_or, Option.or_self]

/-- A cron that the filter lets through belongs to an identity that the request acts for. -/
theorem actsFor_of_agrees {c : AgentCron} {m : MonitorReference}
    (hmetadata : ∀ k, c.metadata k = (m.owned c.creator).lookup k)
    (h : cronAgrees a.entries c.metadata = true) : a.ActsFor c.creator := by
  have hread : ∀ p ∈ a.entries, m.metadata.lookup p.1 = none →
      c.creator.authority p.1 = some p.2 := by
    intro p hp hm
    have hmatch := of_decide_eq_true (List.all_eq_true.mp h p hp)
    rw [hmetadata, lookup_owned, hm, Option.none_or] at hmatch
    cases hauth : c.creator.authority p.1 with
    | none => rw [hauth] at hmatch; cases hmatch
    | some w =>
        rw [hauth] at hmatch
        exact hmatch
  have htenant := hread ("tenant_id", a.tenantId.val) (by simp [AgentIdentity.entries]) rfl
  have hworkspace := hread ("workspace_id", a.workspaceId.val)
    (by simp [AgentIdentity.entries]) rfl
  have hsubject := hread ("user_id", a.subject.val) (by simp [AgentIdentity.entries]) rfl
  refine ⟨Subtype.ext (Option.some.inj htenant).symm, Subtype.ext (Option.some.inj hworkspace).symm,
    Subtype.ext (Option.some.inj hsubject).symm, ?_⟩
  intro contextId hcontext
  have hissuer := hread ("identity_issuer", a.issuer.val)
    (by simp [AgentIdentity.entries, hcontext]) rfl
  have hsame := hread ("context_id", contextId.text) (by simp [AgentIdentity.entries, hcontext]) rfl
  obtain ⟨contextId', hcontext', -⟩ := Option.map_eq_some_iff.mp hissuer
  obtain ⟨contextId'', hcontext'', htext⟩ := Option.map_eq_some_iff.mp hsame
  obtain ⟨_, -, hissuer⟩ := Option.map_eq_some_iff.mp hissuer
  have hid : contextId'' = contextId := by
    have hread := Uuid.ofText_text contextId''
    rw [htext, Uuid.ofText_text] at hread
    exact (Option.some.inj hread).symm
  exact ⟨by rw [hcontext'', hid], Subtype.ext hissuer.symm⟩

namespace CronStore

variable {s s' : CronStore} {r : CronRequest}

/-- Touching crons under the authority of a request keeps them isolated. -/
theorem Isolated.touch (hs : s.Isolated) {selects : AgentCron → Bool}
    {rewrite : AgentCron → Option AgentCron}
    (hrewrite : ∀ c c', a.ActsFor c.creator →
      (∃ m : MonitorReference, ∀ k, c.metadata k = (m.owned c.creator).lookup k) →
      rewrite c = some c' → c'.creator = c.creator ∧
        ∃ m : MonitorReference, ∀ k, c'.metadata k = (m.owned c.creator).lookup k) :
    (s.touch a a.entries selects rewrite).Isolated where
  metadata := by
    intro c' hc'
    obtain ⟨c, hc, hmap⟩ := List.mem_filterMap.mp hc'
    have howned := hs.metadata c hc
    by_cases htouched : (selects c && cronAgrees a.entries c.metadata) = true
    · rw [if_pos htouched] at hmap
      obtain ⟨-, hagrees⟩ := Bool.and_eq_true_iff.mp htouched
      obtain ⟨m, hm⟩ := howned
      obtain ⟨hcreator, hkept⟩ := hrewrite c c' (actsFor_of_agrees hm hagrees) ⟨m, hm⟩ hmap
      rw [hcreator]
      exact hkept
    · rw [if_neg htouched] at hmap
      rw [← Option.some.inj hmap]
      exact howned
  touches := by
    intro p hp
    rcases List.mem_append.mp hp with hold | hnew
    · exact hs.touches p hold
    · obtain ⟨c, hc, rfl⟩ := List.mem_map.mp hnew
      obtain ⟨hmem, hmatch⟩ := List.mem_filter.mp hc
      obtain ⟨-, hagrees⟩ := Bool.and_eq_true_iff.mp hmatch
      obtain ⟨m, hm⟩ := hs.metadata c hmem
      exact actsFor_of_agrees hm hagrees
  bound := hs.bound

theorem Isolated.read (hs : s.Isolated) (selects : AgentCron → Bool) :
    (s.touch a a.entries selects some).Isolated := by
  apply hs.touch
  rintro c c' - howned ⟨⟩
  exact ⟨rfl, howned⟩

theorem cronAccessFilter_eq (hcarries : Carries permissions a) {required : Permission}
    {filter : List (String × List Char)}
    (h : cronAccessFilter permissions a.subject required = some filter) : filter = a.entries := by
  obtain ⟨_, -, h⟩ := Option.bind_eq_some_iff.mp h
  rw [cronAuthority_eq hcarries] at h
  exact (Option.some.inj h).symm

theorem Isolated.step (hs : s.Isolated) (hr : Regular r)
    (h : s.step shown directory r = some s') : s'.Isolated := by
  obtain ⟨a, ha, h⟩ := Option.bind_eq_some_iff.mp h
  obtain ⟨user, huser, h⟩ := Option.bind_eq_some_iff.mp h
  obtain ⟨permissions, hpermissions, h⟩ := Option.bind_eq_some_iff.mp h
  obtain ⟨hcarries, hidentity⟩ := carries_authorized hr huser ha hpermissions
  rw [hidentity] at h
  cases hcall : r.call with
  | create id value =>
      simp only [hcall] at h
      obtain ⟨_, -, h⟩ := Option.bind_eq_some_iff.mp h
      obtain ⟨kept, hkept, h⟩ := Option.bind_eq_some_iff.mp h
      obtain ⟨⟨m, hmetadata⟩, hbound, hwrite⟩ := scopeCronCreate_cases hcarries hkept
      rw [← Option.some.inj h]
      constructor
      · intro c hc
        rcases List.mem_append.mp hc with hold | hnew
        · exact hs.metadata c hold
        · rw [List.mem_singleton.mp hnew, hmetadata]
          exact ⟨m, fun k => rfl⟩
      · exact hs.touches
      · intro p hp
        rcases List.mem_append.mp hp with hold | hnew
        · exact hs.bound p hold
        · rw [ScopedCron.bound, hbound] at hnew
          rw [List.mem_singleton.mp hnew]
          exact ⟨permissions, rfl, hcarries, hwrite⟩
  | update id value =>
      simp only [hcall] at h
      obtain ⟨kept, hkept, h⟩ := Option.bind_eq_some_iff.mp h
      obtain ⟨hfilter, hmetadata, hbound⟩ := scopeCronUpdate_cases hcarries hkept
      have htouched : (s.touch a a.entries (fun c => c.id = id)
          fun c => some (c.merge kept.metadata)).Isolated := by
        apply hs.touch
        rintro c c' hacts ⟨m', hm'⟩ ⟨⟩
        refine ⟨rfl, ?_⟩
        rcases hmetadata with hnone | ⟨m, hsome⟩
        · rw [hnone]
          exact ⟨m', hm'⟩
        · rw [hsome]
          refine ⟨m, fun k => ?_⟩
          rw [← merge_owned hacts m m' k, ← hm' k]
          rfl
      rw [← Option.some.inj h, hfilter, ScopedCron.bound, hbound]
      simp only [Option.toList_none, List.map_nil, List.append_nil]
      exact htouched
  | read id =>
      simp only [hcall] at h
      obtain ⟨filter, hfilter, h⟩ := Option.bind_eq_some_iff.mp h
      rw [← Option.some.inj h, cronAccessFilter_eq hcarries hfilter]
      exact hs.read _
  | search =>
      simp only [hcall] at h
      obtain ⟨filter, hfilter, h⟩ := Option.bind_eq_some_iff.mp h
      rw [← Option.some.inj h, cronAccessFilter_eq hcarries hfilter]
      exact hs.read _
  | delete id =>
      simp only [hcall] at h
      obtain ⟨filter, hfilter, h⟩ := Option.bind_eq_some_iff.mp h
      rw [← Option.some.inj h, cronAccessFilter_eq hcarries hfilter]
      apply hs.touch
      rintro c c' - - ⟨⟩

end CronStore

end Isolation

section Samples

open ThreadStore

namespace CronStore

theorem firstVersion_pos : (1 : ℤ) ≤ 1 := le_refl 1

def plainReference : MonitorReference := ⟨0, ⟨1, firstVersion_pos⟩, 0⟩

/-- The value of a request for a cron of the plain monitor, with a foreign tenant. -/
def plainCronValue : CronFields :=
  [("schedule", .text "0 * * * *".toList),
    ("input", .object [("request", .object plainReference.metadata)]),
    ("metadata", .object (("tenant_id", .text ['x']) :: plainReference.metadata))]

def plainCronRequest (call : CronCall) : CronRequest :=
  ⟨.user (plainText 'i') (plainText 's') 0, plainGrants, plainGrants, call⟩

end CronStore

end Samples

end CryptoAlert
