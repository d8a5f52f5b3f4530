import CryptoAlert.Integrations.WebhookSigning
import CryptoAlert.Lib.Base64
import CryptoAlert.Lib.Numerals
import CryptoAlert.Lib.Transition
import Mathlib.Data.List.Forall2
import Mathlib.Data.Option.Basic

/-!
# Deliveries to a webhook integration

A delivery is verified, looked up among the accepted events and charged a nonce, in one
transaction under the row lock of the integration; an exception rolls it back. The verifier
normalises the event, and the lookup and the audit use it as it came.
-/

namespace CryptoAlert

inductive WebhookStatus where
  | accepted | rejected | replayed
deriving DecidableEq, Repr

inductive WebhookReason where
  | rejected (reason : RejectReason)
  | duplicateEvent | nonceReplay
deriving DecidableEq, Repr

/-- The columns of `webhook_integrations` that a delivery reads. -/
structure WebhookIntegration where
  active : Bool
  acceptedKeyIds : List CodeText

/-- A row of `webhook_delivery_audits`. -/
structure WebhookDeliveryAudit where
  eventId : CodeText
  keyId : CodeText
  nonceHash : CodeText
  payloadHash : CodeText
  status : WebhookStatus
  reason : Option WebhookReason
  receivedAt : ℕ
deriving DecidableEq

/-- A row of `webhook_replay_nonces`. -/
structure WebhookReplayNonce where
  nonceHash : CodeText
  expiresAt : ℕ
deriving DecidableEq

structure WebhookRows where
  audits : List WebhookDeliveryAudit
  nonces : List WebhookReplayNonce

/-- What `accept_webhook_delivery` is called with. -/
structure WebhookDelivery where
  payload : Payload
  signature : WebhookSignature
  signer : WebhookSigner
  receivedAt : ℕ
  nonceTtlSeconds : {n : ℕ // 1 ≤ n ∧ n ≤ 86400}

structure WebhookDeliveryResult where
  status : WebhookStatus
  reason : Option WebhookReason
  payloadHash : CodeText
deriving DecidableEq

section

variable (hash : WebhookHashes) (integration : WebhookIntegration)

/-- The checks of the keys and of the signature. -/
def authenticateDelivery (d : WebhookDelivery) : Except VerifierError CodeText := do
  ensure (d.signature.keyId ∈ integration.acceptedKeyIds) (.signature .unknownKey)
  d.signer.verify hash d.payload d.signature

def nonceHash (d : WebhookDelivery) : CodeText := hash.sha256Text d.signature.nonce

/-- The status and the reason of a delivery; `none` where an exception escapes. -/
def judge (rows : WebhookRows) (d : WebhookDelivery) :
    Option (WebhookStatus × Option WebhookReason) :=
  match authenticateDelivery hash integration d with
  | .error (.signature reason) => some (.rejected, some (.rejected reason))
  | .error .value => some (.rejected, some (.rejected .signatureMalformed))
  | .error .type => none
  | .ok _ =>
      if ∃ a ∈ rows.audits, a.eventId = d.signature.eventId ∧ a.status = .accepted then
        some (.replayed, some .duplicateEvent)
      else if ∃ n ∈ rows.nonces, n.nonceHash = nonceHash hash d then
        some (.replayed, some .nonceReplay)
      else some (.accepted, none)

/-- `_append_audit`. -/
def auditRow (d : WebhookDelivery) (verdict : WebhookStatus × Option WebhookReason) :
    Option WebhookDeliveryAudit := do
  let eventId ← d.signature.eventId.store 128
  let keyId ← d.signature.keyId.store 64
  return {
    eventId, keyId, nonceHash := nonceHash hash d, payloadHash := hash.sha256 d.payload
    status := verdict.1, reason := verdict.2, receivedAt := d.receivedAt }

/-- `accept_webhook_delivery`; `none` where an exception escapes. -/
def acceptWebhookDelivery (rows : WebhookRows) (d : WebhookDelivery) :
    Option (WebhookRows × WebhookDeliveryResult) := do
  guard (integration.active = true)
  guard d.signature.nonce.Encodable
  let verdict ← judge hash integration rows d
  let audit ← auditRow hash d verdict
  let nonces :=
    if verdict.1 = .accepted then
      rows.nonces ++ [⟨nonceHash hash d, d.receivedAt + d.nonceTtlSeconds.val⟩]
    else rows.nonces
  return (⟨rows.audits ++ [audit], nonces⟩, ⟨verdict.1, verdict.2, hash.sha256 d.payload⟩)

end

/-- The rows, and the calls so far with their results. -/
structure WebhookRun where
  rows : WebhookRows
  calls : List (WebhookDelivery × Option WebhookDeliveryResult)

namespace WebhookRun

def start : WebhookRun := ⟨⟨[], []⟩, []⟩

def step (hash : WebhookHashes) (integration : WebhookIntegration) (r : WebhookRun)
    (d : WebhookDelivery) : Option WebhookRun :=
  match acceptWebhookDelivery hash integration r.rows d with
  | some (rows, result) => some ⟨rows, r.calls ++ [(d, some result)]⟩
  | none => some ⟨r.rows, r.calls ++ [(d, none)]⟩

/-- The result of a call is that a delivery was accepted. -/
def isAccepted (call : WebhookDelivery × Option WebhookDeliveryResult) : Bool :=
  call.2.any fun result => result.status = .accepted

/-- The deliveries that were accepted. -/
def accepted (r : WebhookRun) : List WebhookDelivery := (r.calls.filter isAccepted).map Prod.fst

/-- A call and the audit row that it adds. -/
structure Audited (call : WebhookDelivery × Option WebhookDeliveryResult)
    (audit : WebhookDeliveryAudit) : Prop where
  result : call.2 = some ⟨audit.status, audit.reason, audit.payloadHash⟩
  eventId : call.1.signature.eventId.store 128 = some audit.eventId
  keyId : call.1.signature.keyId.store 64 = some audit.keyId

/-- Deliveries are accepted once and carry authentic signatures, only they consume nonces, and
every call returns and adds one audit row. -/
structure ExactlyOnce (hash : WebhookHashes) (integration : WebhookIntegration)
    (r : WebhookRun) : Prop where
  events : r.accepted.Pairwise fun d d' => d.signature.eventId.strip ≠ d'.signature.eventId.strip
  nonces : r.accepted.Pairwise fun d d' => d.signature.nonce ≠ d'.signature.nonce
  authentic : ∀ d ∈ r.accepted, d.signature.keyId ∈ integration.acceptedKeyIds ∧
    d.signer.Signed hash d.payload d.signature
  consumed : r.rows.nonces.map WebhookReplayNonce.nonceHash = r.accepted.map (nonceHash hash)
  audited : List.Forall₂ Audited r.calls r.rows.audits

/-- The nonce can be encoded, the signature can be compared if it comes to that, the identifiers
fit into their columns, and a verified event was not accepted in another form before. -/
structure Ordinary (hash : WebhookHashes) (integration : WebhookIntegration) (r : WebhookRun)
    (d : WebhookDelivery) : Prop where
  encodable : d.signature.nonce.Encodable
  comparable : d.signature.keyId ∈ integration.acceptedKeyIds →
    (d.signer.expected hash d.payload d.signature).isOk = true → d.signature.signature.IsAscii
  storable : (d.signature.eventId.store 128).isSome ∧ (d.signature.keyId.store 64).isSome
  uniform : (authenticateDelivery hash integration d).isOk = true → ∀ d' ∈ r.accepted,
    d'.signature.eventId.strip = d.signature.eventId.strip →
      d'.signature.eventId.store 128 = some d.signature.eventId

variable {hash : WebhookHashes} {integration : WebhookIntegration} {r r' : WebhookRun}
  {d : WebhookDelivery}

theorem judge_accepted {rows : WebhookRows} {reason : Option WebhookReason}
    (h : judge hash integration rows d = some (.accepted, reason)) :
    (∃ digest, authenticateDelivery hash integration d = .ok digest) ∧
      (¬∃ a ∈ rows.audits, a.eventId = d.signature.eventId ∧ a.status = .accepted) ∧
      ¬∃ n ∈ rows.nonces, n.nonceHash = nonceHash hash d := by
  unfold judge at h
  split at h
  · cases h
  · cases h
  · cases h
  · next digest hdigest =>
      split_ifs at h with hevent hnonce
      · cases h
      · cases h
      · exact ⟨⟨digest, hdigest⟩, hevent, hnonce⟩

theorem authentic_of_authenticateDelivery {digest : CodeText}
    (h : authenticateDelivery hash integration d = .ok digest) :
    d.signature.keyId ∈ integration.acceptedKeyIds ∧
      d.signer.Signed hash d.payload d.signature := by
  obtain ⟨_, hkey, hverify⟩ := bind_eq_ok.mp h
  exact ⟨ensure_eq_ok.mp hkey, (WebhookSigner.signed_of_verify hverify).1⟩

/-- What a call that returns has done. -/
theorem acceptWebhookDelivery_cases {rows rows' : WebhookRows} {result : WebhookDeliveryResult}
    (h : acceptWebhookDelivery hash integration rows d = some (rows', result)) :
    judge hash integration rows d = some (result.status, result.reason) ∧
    (∃ audit, rows'.audits = rows.audits ++ [audit] ∧ audit.status = result.status ∧
      Audited (d, some result) audit) ∧
    rows'.nonces = if result.status = .accepted then
      rows.nonces ++ [⟨nonceHash hash d, d.receivedAt + d.nonceTtlSeconds.val⟩]
      else rows.nonces := by
  unfold acceptWebhookDelivery at h
  simp only [Option.bind_eq_bind, Option.bind_eq_some_iff] at h
  obtain ⟨_, -, _, -, verdict, hverdict, audit, haudit, h⟩ := h
  cases h
  simp only [auditRow, Option.bind_eq_bind, Option.bind_eq_some_iff] at haudit
  obtain ⟨eventId, heventId, keyId, hkeyId, haudit⟩ := haudit
  cases haudit
  exact ⟨hverdict, ⟨_, rfl, rfl, ⟨rfl, heventId, hkeyId⟩⟩, rfl⟩

/-- Only the comparison of the digests raises a `TypeError`. -/
theorem expected_ne_type {signer : WebhookSigner} {payload : Payload} {s : WebhookSignature} :
    signer.expected hash payload s ≠ .error .type := by
  have hid : ∀ max value, validateIdentifier max value ≠ .error .type := by
    intro max value
    rw [validateIdentifier]
    split_ifs <;> rintro ⟨⟩
  have hnonce : validateNonce s.nonce ≠ .error .type := by
    rw [validateNonce]
    split_ifs <;> rintro ⟨⟩
  have hkey : ∀ keyId, signer.key keyId ≠ .error .type := by
    intro keyId
    rw [WebhookSigner.key]
    split <;> rintro ⟨⟩
  have hmessage : ∀ eventId,
      canonicalMessage hash payload s.timestamp s.nonce eventId ≠ .error .type := by
    intro eventId
    rw [canonicalMessage]
    split_ifs <;> rintro ⟨⟩
  intro h
  obtain h | ⟨keyId, -, h⟩ := bind_eq_error.mp h
  · exact hid _ _ h
  obtain h | ⟨eventId, -, h⟩ := bind_eq_error.mp h
  · exact hid _ _ h
  obtain h | ⟨_, -, h⟩ := bind_eq_error.mp h
  · exact hnonce h
  obtain h | ⟨_, -, h⟩ := bind_eq_error.mp h
  · cases ensure_eq_error h
  obtain h | ⟨_, -, h⟩ := bind_eq_error.mp h
  · cases ensure_eq_error h
  obtain h | ⟨key, -, h⟩ := bind_eq_error.mp h
  · exact hkey _ h
  obtain h | ⟨message, -, h⟩ := bind_eq_error.mp h
  · exact hmessage _ h
  · cases h

theorem isAscii_of_expected {signer : WebhookSigner} {payload : Payload} {s : WebhookSignature}
    {text : CodeText} (h : signer.expected hash payload s = .ok text) : text.IsAscii := by
  obtain ⟨_, -, h₁⟩ := bind_eq_ok.mp h
  obtain ⟨_, -, h₂⟩ := bind_eq_ok.mp h₁
  obtain ⟨_, -, h₃⟩ := bind_eq_ok.mp h₂
  obtain ⟨_, -, h₄⟩ := bind_eq_ok.mp h₃
  obtain ⟨_, -, h₅⟩ := bind_eq_ok.mp h₄
  obtain ⟨key, -, h₆⟩ := bind_eq_ok.mp h₅
  obtain ⟨message, -, hhmac⟩ := bind_eq_ok.mp h₆
  rw [← Except.ok.inj hhmac]
  exact hash.hmac_ascii key message

theorem authenticateDelivery_ne_type (hd : Ordinary hash integration r d) :
    authenticateDelivery hash integration d ≠ .error .type := by
  intro h
  obtain h | ⟨_, hkey, h⟩ := bind_eq_error.mp h
  · cases ensure_eq_error h
  obtain h | ⟨expected, hexpected, h⟩ := bind_eq_error.mp h
  · exact expected_ne_type h
  have hascii : d.signature.signature.IsAscii :=
    hd.comparable (ensure_eq_ok.mp hkey) (by rw [hexpected]; rfl)
  have hhex : expected.IsAscii := isAscii_of_expected hexpected
  obtain h | ⟨same, -, h⟩ := bind_eq_error.mp h
  · rw [WebhookSigner.compareDigest, if_pos ⟨hhex, hascii⟩] at h
    cases h
  obtain h | ⟨_, -, h⟩ := bind_eq_error.mp h
  · cases ensure_eq_error h
  · cases h

/-- An ordinary call returns. -/
theorem acceptWebhookDelivery_isSome (hactive : integration.active = true)
    (hd : Ordinary hash integration r d) :
    (acceptWebhookDelivery hash integration r.rows d).isSome := by
  obtain ⟨verdict, hverdict⟩ : ∃ verdict, judge hash integration r.rows d = some verdict := by
    unfold judge
    cases hauth : authenticateDelivery hash integration d with
    | error e =>
        cases e with
        | signature reason => exact ⟨_, rfl⟩
        | value => exact ⟨_, rfl⟩
        | type => exact absurd hauth (authenticateDelivery_ne_type hd)
    | ok digest =>
        simp only
        split_ifs
        · exact ⟨_, rfl⟩
        · exact ⟨_, rfl⟩
        · exact ⟨_, rfl⟩
  obtain ⟨eventId, heventId⟩ := Option.isSome_iff_exists.mp hd.storable.1
  obtain ⟨keyId, hkeyId⟩ := Option.isSome_iff_exists.mp hd.storable.2
  simp only [acceptWebhookDelivery, auditRow, guard, if_pos hactive, if_pos hd.encodable,
    hverdict, heventId, hkeyId, Option.bind_eq_bind, Option.pure_def, Option.bind_some,
    Option.isSome_some]

/-- What is related to a member of the first list. -/
theorem exists_of_forall₂ {α β : Type} {R : α → β → Prop} {l : List α} {l' : List β}
    (h : List.Forall₂ R l l') {a : α} (ha : a ∈ l) : ∃ b ∈ l', R a b := by
  induction h with
  | nil => exact absurd ha List.not_mem_nil
  | cons hab _ ih =>
      rcases List.mem_cons.mp ha with rfl | hmem
      · exact ⟨_, List.mem_cons_self, hab⟩
      · obtain ⟨b, hb, hrel⟩ := ih hmem
        exact ⟨b, List.mem_cons_of_mem _ hb, hrel⟩

namespace ExactlyOnce

/-- The audit row of an accepted delivery. -/
theorem audit (hr : r.ExactlyOnce hash integration) {d' : WebhookDelivery}
    (h : d' ∈ r.accepted) : ∃ a ∈ r.rows.audits, a.status = .accepted ∧
      d'.signature.eventId.store 128 = some a.eventId := by
  obtain ⟨call, hcall, rfl⟩ := List.mem_map.mp h
  obtain ⟨hmem, haccepted⟩ := List.mem_filter.mp hcall
  obtain ⟨a, ha, haudit⟩ := exists_of_forall₂ hr.audited hmem
  rw [isAccepted, haudit.result] at haccepted
  exact ⟨a, ha, of_decide_eq_true haccepted, haudit.eventId⟩

theorem start : (WebhookRun.start).ExactlyOnce hash integration where
  events := List.Pairwise.nil
  nonces := List.Pairwise.nil
  authentic := fun _ h => absurd h List.not_mem_nil
  consumed := rfl
  audited := .nil

theorem step (hr : r.ExactlyOnce hash integration) (hactive : integration.active = true)
    (hd : Ordinary hash integration r d) (h : r.step hash integration d = some r') :
    r'.ExactlyOnce hash integration := by
  obtain ⟨⟨rows, result⟩, haccept⟩ :=
    Option.isSome_iff_exists.mp (acceptWebhookDelivery_isSome hactive hd)
  obtain ⟨hjudge, ⟨audit, haudits, hstatus, haudit⟩, hnonces⟩ :=
    acceptWebhookDelivery_cases haccept
  rw [WebhookRun.step, haccept] at h
  cases h
  have haudited : List.Forall₂ Audited (r.calls ++ [(d, some result)]) rows.audits := by
    rw [haudits]
    exact List.rel_append hr.audited (.cons haudit .nil)
  by_cases haccepted : result.status = .accepted
  · have hlist : accepted ⟨rows, r.calls ++ [(d, some result)]⟩ = r.accepted ++ [d] := by
      simp [accepted, isAccepted, haccepted]
    rw [haccepted] at hjudge
    rw [if_pos haccepted] at hnonces
    obtain ⟨⟨digest, hdigest⟩, hevent, hnonce⟩ := judge_accepted hjudge
    have hnewEvent : ∀ d' ∈ r.accepted,
        d'.signature.eventId.strip ≠ d.signature.eventId.strip := by
      intro d' hd' hsame
      obtain ⟨a, ha, hstored, hcolumn⟩ := hr.audit hd'
      rw [hd.uniform (by rw [hdigest]; rfl) d' hd' hsame] at hcolumn
      exact hevent ⟨a, ha, (Option.some.inj hcolumn).symm, hstored⟩
    have hnewNonce : ∀ d' ∈ r.accepted, d'.signature.nonce ≠ d.signature.nonce := by
      intro d' hd' hsame
      have hmem : nonceHash hash d ∈ r.rows.nonces.map WebhookReplayNonce.nonceHash := by
        rw [hr.consumed, nonceHash, ← hsame]
        exact List.mem_map_of_mem hd'
      obtain ⟨n, hn, hhash⟩ := List.mem_map.mp hmem
      exact hnonce ⟨n, hn, hhash⟩
    constructor
    · rw [hlist, List.pairwise_append]
      refine ⟨hr.events, List.pairwise_singleton _ _, fun d' hd' e he => ?_⟩
      rw [List.mem_singleton.mp he]
      exact hnewEvent d' hd'
    · rw [hlist, List.pairwise_append]
      refine ⟨hr.nonces, List.pairwise_singleton _ _, fun d' hd' e he => ?_⟩
      rw [List.mem_singleton.mp he]
      exact hnewNonce d' hd'
    · rw [hlist, List.forall_mem_append]
      exact ⟨hr.authentic, List.forall_mem_singleton.mpr (authentic_of_authenticateDelivery hdigest)⟩
    · rw [hlist, hnonces, List.map_append, List.map_append, hr.consumed]
      rfl
    · exact haudited
  · have hlist : accepted ⟨rows, r.calls ++ [(d, some result)]⟩ = r.accepted := by
      simp [accepted, isAccepted, haccepted]
    rw [if_neg haccepted] at hnonces
    constructor
    · rw [hlist]
      exact hr.events
    · rw [hlist]
      exact hr.nonces
    · rw [hlist]
      exact hr.authentic
    · rw [hlist, hnonces]
      exact hr.consumed
    · exact haudited

end ExactlyOnce

/-- In a run of ordinary calls to an active integration every delivery is handled once. -/
theorem deliveries_exactlyOnce (hactive : integration.active = true)
    (h : Reaches (step hash integration) (Ordinary hash integration) start r) :
    r.ExactlyOnce hash integration :=
  h.invariant (I := fun r => r.ExactlyOnce hash integration)
    (fun _ _ _ hd hr hstep => hr.step hactive hd hstep) ExactlyOnce.start

section PlainHashes

/-- Hexadecimal digits of a fixed width for every element. -/
def hexadecimal {m : ℕ} (width : ℕ) (l : List (Fin m)) : CodeText :=
  l.flatMap fun n => CodeText.ofChars (Numerals.write 16 width n.val)

theorem hexadecimal_injective {m width : ℕ} (hm : m ≤ 16 ^ width) (hwidth : 0 < width) :
    Function.Injective (hexadecimal (m := m) width) := by
  have hlength : ∀ n, (CodeText.ofChars (Numerals.write 16 width n)).length = width := by
    intro n
    rw [CodeText.ofChars, List.length_map, Numerals.length_write]
  have hne : ∀ (n : Fin m) (l : List (Fin m)), hexadecimal width (n :: l) ≠ [] := by
    intro n l hnil
    have hlen := congrArg List.length hnil
    rw [hexadecimal, List.flatMap_cons, List.length_append, hlength, List.length_nil] at hlen
    omega
  intro l
  induction l with
  | nil =>
      intro l' h
      cases l' with
      | nil => rfl
      | cons n l' => exact absurd h.symm (hne n l')
  | cons n l ih =>
      intro l' h
      cases l' with
      | nil => exact absurd h (hne n l)
      | cons n' l' =>
          simp only [hexadecimal, List.flatMap_cons] at h
          obtain ⟨hfirst, hrest⟩ := List.append_inj h (by rw [hlength, hlength])
          have hwrite := CodeText.ofChars_injective hfirst
          have hread : ∀ k : Fin m, Numerals.read 16 (Numerals.write 16 width k.val) =
              some k.val := fun k => Numerals.read_write le_rfl (k.isLt.trans_le hm)
          have hsame := hread n
          rw [hwrite, hread n'] at hsame
          rw [Fin.ext (Option.some.inj hsame), ih hrest]

theorem mem_hexadecimal {m width : ℕ} {l : List (Fin m)} {c : CodePoint}
    (h : c ∈ hexadecimal width l) : c.isAlnum = true ∧ c.isAscii = true := by
  obtain ⟨n, -, hc⟩ := List.mem_flatMap.mp h
  obtain ⟨d, hd, rfl⟩ := List.mem_map.mp hc
  obtain ⟨k, hk, rfl⟩ := Numerals.mem_write (by decide) hd
  have hall : ∀ i : Fin 16, (CodePoint.ofChar (Nat.digitChar i.val)).isAlnum = true ∧
      (CodePoint.ofChar (Nat.digitChar i.val)).isAscii = true := by decide +kernel
  exact hall ⟨k, hk⟩

/-- Hash functions that write their input out. -/
def plainHashes : WebhookHashes where
  hmac _ message := hexadecimal 6 message
  sha256 payload := hexadecimal 2 payload
  sha256Text := hexadecimal 6
  hmac_ascii _ _ _ hc := (mem_hexadecimal hc).2
  hmac_injective _ := hexadecimal_injective (by decide) (by decide)
  sha256_injective := hexadecimal_injective (by decide) (by decide)
  sha256_hex _ _ hc := (mem_hexadecimal hc).1

def plainIntegration : WebhookIntegration := ⟨true, [CodeText.ofChars ['k']]⟩

def plainSigner : WebhookSigner := ⟨[CodeText.ofChars ['k']], 300, 10, fun _ => .key []⟩

/-- A delivery of the event `e`, whose identifier may come with white space, under a nonce of
sixteen equal characters. -/
def plainDelivery (eventId : List Char) (nonce : Char) : WebhookDelivery where
  payload := [1, 2]
  signature := {
    keyId := CodeText.ofChars ['k'], timestamp := 9
    nonce := CodeText.ofChars (List.replicate 16 nonce), eventId := CodeText.ofChars eventId
    signature := plainHashes.hmac [] (canonicalLines plainHashes [1, 2] 9
      (CodeText.ofChars (List.replicate 16 nonce)) (CodeText.ofChars ['e'])) }
  signer := plainSigner
  receivedAt := 0
  nonceTtlSeconds := ⟨600, by decide⟩

/-- One delivery is accepted. -/
theorem deliveries_exactlyOnce_single :
    ∃ r, Reaches (step plainHashes plainIntegration) (Ordinary plainHashes plainIntegration)
        start r ∧ r.accepted.length = 1 ∧ r.ExactlyOnce plainHashes plainIntegration := by
  have hany : (step plainHashes plainIntegration start (plainDelivery ['e'] 'a')).any
      (fun r => r.accepted.length = 1) = true := by decide +kernel
  obtain ⟨r, hstep, hone⟩ := (Option.any_eq_true _ _).mp hany
  have hordinary : Ordinary plainHashes plainIntegration start (plainDelivery ['e'] 'a') := {
    encodable := by decide +kernel
    comparable := fun _ _ => by decide +kernel
    storable := by decide +kernel
    uniform := fun _ _ h => absurd h List.not_mem_nil }
  have hrun := Reaches.refl.tail _ hordinary hstep
  exact ⟨r, hrun, of_decide_eq_true hone, deliveries_exactlyOnce rfl hrun⟩

/-- An event is accepted again when its identifier comes with a space and another nonce. -/
theorem event_accepted_twice :
    ∃ r, Reaches (step plainHashes plainIntegration) anyStep start r ∧
      ¬ r.ExactlyOnce plainHashes plainIntegration := by
  have hany : (runLabels (step plainHashes plainIntegration) start
      [plainDelivery ['e'] 'a', plainDelivery [' ', 'e'] 'b']).any
      (fun r => !decide (r.accepted.Pairwise fun d d' =>
        d.signature.eventId.strip ≠ d'.signature.eventId.strip)) = true := by decide +kernel
  obtain ⟨r, hrun, htwice⟩ := (Option.any_eq_true _ _).mp hany
  refine ⟨r, reaches_of_runLabels _ hrun, fun honce => ?_⟩
  rw [decide_eq_true honce.events] at htwice
  cases htwice

end PlainHashes

end WebhookRun

end CryptoAlert
